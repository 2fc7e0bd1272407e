import Mathlib

/-!
# JSON text

JSON values made of strings, arrays and objects, the compact text Go's
`encoding/json` writes for them, and a parser for that text. `parseValue_render`
says that the parser reads a value back and stops right after it, so a text is
decoded to the value it was rendered from (`parse_render`), and a text with
anything after its first value is rejected (`parse_render_append`).
-/

namespace CtrlMesh.Framework

inductive Json where
  | str (s : String)
  | arr (xs : List Json)
  | obj (kvs : List (String × Json))

namespace Json

/-! ## Characters -/

def hexDigit (n : Nat) : Char := if n < 10 then Char.ofNat (48 + n) else Char.ofNat (87 + n)

def hex4 (n : Nat) : List Char :=
  [hexDigit (n / 4096 % 16), hexDigit (n / 256 % 16), hexDigit (n / 16 % 16), hexDigit (n % 16)]

def unhexDigit (c : Char) : Option Nat :=
  if '0' ≤ c ∧ c ≤ '9' then some (c.toNat - 48)
  else if 'a' ≤ c ∧ c ≤ 'f' then some (c.toNat - 87)
  else none

/-- The characters written as `\u` and four digits: control characters, and
those `encoding/json` escapes for use in HTML and JavaScript. -/
def isUnicodeEscaped (c : Char) : Bool :=
  c.toNat < 0x20 || c == '<' || c == '>' || c == '&' || c.toNat == 0x2028 || c.toNat == 0x2029

/-- A character inside a string. -/
def escape (c : Char) : List Char :=
  if c = '"' then ['\\', '"']
  else if c = '\\' then ['\\', '\\']
  else if c = '\n' then ['\\', 'n']
  else if c = '\r' then ['\\', 'r']
  else if c = '\t' then ['\\', 't']
  else if isUnicodeEscaped c then '\\' :: 'u' :: hex4 c.toNat
  else [c]

/-- The character after a backslash. -/
def unescapeSimple : Char → Option Char
  | '"' => some '"'
  | '\\' => some '\\'
  | '/' => some '/'
  | 'b' => some '\x08'
  | 'f' => some '\x0c'
  | 'n' => some '\n'
  | 'r' => some '\r'
  | 't' => some '\t'
  | _ => none

/-- The character at the start of a text inside a string. -/
def unescape : List Char → Option (Char × List Char)
  | [] => none
  | c :: cs =>
    if c = '\\' then
      match cs with
      | [] => none
      | 'u' :: d₁ :: d₂ :: d₃ :: d₄ :: cs => do
        let n₁ ← unhexDigit d₁
        let n₂ ← unhexDigit d₂
        let n₃ ← unhexDigit d₃
        let n₄ ← unhexDigit d₄
        some (Char.ofNat (4096 * n₁ + 256 * n₂ + 16 * n₃ + n₄), cs)
      | d :: cs => (unescapeSimple d).map fun c => (c, cs)
    else some (c, cs)

theorem unhexDigit_hexDigit : ∀ n < 16, unhexDigit (hexDigit n) = some n := by decide

theorem unescape_hex4 (n : Nat) (h : n < 65536) (cs : List Char) :
    unescape ('\\' :: 'u' :: (hex4 n ++ cs)) = some (Char.ofNat n, cs) := by
  have e : 4096 * (n / 4096 % 16) + 256 * (n / 256 % 16) + 16 * (n / 16 % 16) + n % 16 = n := by
    omega
  simp [unescape, hex4, unhexDigit_hexDigit _ (Nat.mod_lt _ (by decide : 16 > 0)), e]

theorem unescape_escape (c : Char) (cs : List Char) : unescape (escape c ++ cs) = some (c, cs) := by
  unfold escape
  split
  · rename_i h; subst h; rfl
  split
  · rename_i h; subst h; rfl
  split
  · rename_i h; subst h; rfl
  split
  · rename_i h; subst h; rfl
  split
  · rename_i h; subst h; rfl
  split
  · rename_i h
    have hc : c.toNat < 65536 := by
      simp only [isUnicodeEscaped, Bool.or_eq_true, decide_eq_true_eq, beq_iff_eq] at h
      rcases h with ((((h | rfl) | rfl) | rfl) | h) | h <;> first | omega | decide
    rw [List.cons_append, List.cons_append, unescape_hex4 _ hc, Char.ofNat_toNat]
  · rename_i h _ _ _ _
    simp [unescape, h]

theorem escape_ne_quote (c : Char) (cs : List Char) : ∃ d ds, escape c ++ cs = d :: ds ∧ d ≠ '"' := by
  unfold escape
  repeat' split
  all_goals first
    | exact ⟨'\\', _, rfl, by decide⟩
    | (rename_i h _ _ _ _ _; exact ⟨c, cs, rfl, h⟩)

/-! ## Values -/

/-- A string without its opening quote. -/
def renderChars : List Char → List Char
  | [] => ['"']
  | c :: cs => escape c ++ renderChars cs

mutual

/-- The text of a value. -/
def render : Json → List Char
  | str s => '"' :: renderChars s.toList
  | arr xs => '[' :: renderElems xs
  | obj kvs => '\x7b' :: renderMembers kvs

/-- An array without its opening bracket. -/
def renderElems : List Json → List Char
  | [] => [']']
  | x :: xs => render x ++ renderMoreElems xs

def renderMoreElems : List Json → List Char
  | [] => [']']
  | x :: xs => ',' :: (render x ++ renderMoreElems xs)

/-- An object without its opening brace. -/
def renderMembers : List (String × Json) → List Char
  | [] => ['\x7d']
  | kv :: kvs => renderMember kv ++ renderMoreMembers kvs

def renderMoreMembers : List (String × Json) → List Char
  | [] => ['\x7d']
  | kv :: kvs => ',' :: (renderMember kv ++ renderMoreMembers kvs)

def renderMember : String × Json → List Char
  | (k, v) => '"' :: (renderChars k.toList ++ ':' :: render v)

end

/-- The rest of a string, up to its closing quote. -/
def parseChars : Nat → List Char → Option (List Char × List Char)
  | 0, _ => none
  | _ + 1, [] => none
  | n + 1, c :: cs =>
    if c = '"' then some ([], cs)
    else do
      let (d, cs) ← unescape (c :: cs)
      let (s, cs) ← parseChars n cs
      some (d :: s, cs)

mutual

/-- The value at the start of a text, and the text after it. -/
def parseValue : Nat → List Char → Option (Json × List Char)
  | n + 1, '"' :: cs => (parseChars n cs).map fun p => (str (String.ofList p.1), p.2)
  | n + 1, '[' :: cs => (parseElems n cs).map fun p => (arr p.1, p.2)
  | n + 1, '\x7b' :: cs => (parseMembers n cs).map fun p => (obj p.1, p.2)
  | _, _ => none

def parseElems : Nat → List Char → Option (List Json × List Char)
  | 0, _ => none
  | n + 1, cs =>
    if cs.head? = some ']' then some ([], cs.tail)
    else do
      let (x, cs) ← parseValue n cs
      let (xs, cs) ← parseMoreElems n cs
      some (x :: xs, cs)

def parseMoreElems : Nat → List Char → Option (List Json × List Char)
  | _ + 1, ']' :: cs => some ([], cs)
  | n + 1, ',' :: cs => do
    let (x, cs) ← parseValue n cs
    let (xs, cs) ← parseMoreElems n cs
    some (x :: xs, cs)
  | _, _ => none

def parseMembers : Nat → List Char → Option (List (String × Json) × List Char)
  | 0, _ => none
  | n + 1, cs =>
    if cs.head? = some '\x7d' then some ([], cs.tail)
    else do
      let (kv, cs) ← parseMember n cs
      let (kvs, cs) ← parseMoreMembers n cs
      some (kv :: kvs, cs)

def parseMoreMembers : Nat → List Char → Option (List (String × Json) × List Char)
  | _ + 1, '\x7d' :: cs => some ([], cs)
  | n + 1, ',' :: cs => do
    let (kv, cs) ← parseMember n cs
    let (kvs, cs) ← parseMoreMembers n cs
    some (kv :: kvs, cs)
  | _, _ => none

def parseMember : Nat → List Char → Option ((String × Json) × List Char)
  | n + 1, '"' :: cs => do
    let (k, cs) ← parseChars n cs
    match cs with
    | ':' :: cs => do
      let (v, cs) ← parseValue n cs
      some ((String.ofList k, v), cs)
    | _ => none
  | _, _ => none

end

/-- The value of a text; a text with anything after its first value is
rejected. -/
def parse (cs : List Char) : Option Json :=
  match parseValue cs.length cs with
  | some (j, []) => some j
  | _ => none

/-! ## Reading back what was written -/

theorem parseChars_renderChars (s cs : List Char) :
    ∀ n, (renderChars s).length ≤ n → parseChars n (renderChars s ++ cs) = some (s, cs) := by
  induction s with
  | nil =>
    rintro (_ | n) h
    · simp [renderChars] at h
    · simp [renderChars, parseChars]
  | cons c s ih =>
    rintro (_ | n) h
    · obtain ⟨d, ds, hd, -⟩ := escape_ne_quote c (renderChars s)
      simp [renderChars, hd] at h
    · obtain ⟨d, ds, hd, hq⟩ := escape_ne_quote c (renderChars s ++ cs)
      have hlen : (renderChars s).length ≤ n := by
        obtain ⟨e, es, he, -⟩ := escape_ne_quote c []
        rw [List.append_nil] at he
        simp only [renderChars, he, List.length_append, List.length_cons] at h
        omega
      rw [renderChars, List.append_assoc, hd, parseChars, if_neg hq, ← hd, unescape_escape]
      simp [ih n hlen]

theorem head?_render (j : Json) (cs : List Char) : (render j ++ cs).head? ≠ some ']' := by
  cases j <;> simp [render]

theorem render_pos (j : Json) : 0 < (render j).length := by cases j <;> simp [render]

theorem renderMoreElems_pos (xs : List Json) : 0 < (renderMoreElems xs).length := by
  cases xs <;> simp [renderMoreElems]

theorem renderMoreMembers_pos (kvs : List (String × Json)) : 0 < (renderMoreMembers kvs).length := by
  cases kvs <;> simp [renderMoreMembers]

theorem renderMember_pos (kv : String × Json) : 0 < (renderMember kv).length := by
  obtain ⟨k, v⟩ := kv
  simp [renderMember]

theorem head?_renderMember (kv : String × Json) (cs : List Char) :
    (renderMember kv ++ cs).head? ≠ some '\x7d' := by
  obtain ⟨k, v⟩ := kv
  simp [renderMember]

-- The induction follows the values; the fuel left always covers the text left.
mutual

theorem parseValue_render (cs : List Char) :
    ∀ (j : Json) (n : Nat), (render j).length ≤ n → parseValue n (render j ++ cs) = some (j, cs)
  | str s, n, h => by
    obtain _ | n := n
    · simp [render] at h
    · simp only [render, List.length_cons, Nat.add_le_add_iff_right] at h
      simp [render, parseValue, parseChars_renderChars _ cs n h]
  | arr xs, n, h => by
    obtain _ | n := n
    · simp [render] at h
    · simp only [render, List.length_cons, Nat.add_le_add_iff_right] at h
      simp [render, parseValue, parseElems_render cs xs n h]
  | obj kvs, n, h => by
    obtain _ | n := n
    · simp [render] at h
    · simp only [render, List.length_cons, Nat.add_le_add_iff_right] at h
      simp [render, parseValue, parseMembers_render cs kvs n h]

theorem parseElems_render (cs : List Char) :
    ∀ (xs : List Json) (n : Nat), (renderElems xs).length ≤ n →
      parseElems n (renderElems xs ++ cs) = some (xs, cs)
  | [], n, h => by
    obtain _ | n := n
    · simp [renderElems] at h
    · simp [renderElems, parseElems]
  | x :: xs, n, h => by
    have hp := renderMoreElems_pos xs
    simp only [renderElems, List.length_append] at h
    obtain _ | n := n
    · omega
    · have hx := parseValue_render (renderMoreElems xs ++ cs) x n (by omega)
      have hr := render_pos x
      have hxs := parseMoreElems_render cs xs n (by omega)
      rw [renderElems, List.append_assoc, parseElems, if_neg (head?_render x _), hx]
      simp [hxs]

theorem parseMoreElems_render (cs : List Char) :
    ∀ (xs : List Json) (n : Nat), (renderMoreElems xs).length ≤ n →
      parseMoreElems n (renderMoreElems xs ++ cs) = some (xs, cs)
  | [], n, h => by
    obtain _ | n := n
    · simp [renderMoreElems] at h
    · simp [renderMoreElems, parseMoreElems]
  | x :: xs, n, h => by
    simp only [renderMoreElems, List.length_cons, List.length_append] at h
    obtain _ | n := n
    · omega
    · have hx := parseValue_render (renderMoreElems xs ++ cs) x n (by omega)
      have hxs := parseMoreElems_render cs xs n (by omega)
      simp only [renderMoreElems, List.cons_append, List.append_assoc, parseMoreElems]
      rw [hx]
      simp [hxs]

theorem parseMembers_render (cs : List Char) :
    ∀ (kvs : List (String × Json)) (n : Nat), (renderMembers kvs).length ≤ n →
      parseMembers n (renderMembers kvs ++ cs) = some (kvs, cs)
  | [], n, h => by
    obtain _ | n := n
    · simp [renderMembers] at h
    · simp [renderMembers, parseMembers]
  | kv :: kvs, n, h => by
    have hp := renderMoreMembers_pos kvs
    have hm := renderMember_pos kv
    simp only [renderMembers, List.length_append] at h
    obtain _ | n := n
    · omega
    · have hkv := parseMember_render (renderMoreMembers kvs ++ cs) kv n (by omega)
      have hkvs := parseMoreMembers_render cs kvs n (by omega)
      rw [renderMembers, List.append_assoc, parseMembers, if_neg (head?_renderMember kv _), hkv]
      simp [hkvs]

theorem parseMoreMembers_render (cs : List Char) :
    ∀ (kvs : List (String × Json)) (n : Nat), (renderMoreMembers kvs).length ≤ n →
      parseMoreMembers n (renderMoreMembers kvs ++ cs) = some (kvs, cs)
  | [], n, h => by
    obtain _ | n := n
    · simp [renderMoreMembers] at h
    · simp [renderMoreMembers, parseMoreMembers]
  | kv :: kvs, n, h => by
    simp only [renderMoreMembers, List.length_cons, List.length_append] at h
    obtain _ | n := n
    · omega
    · have hkv := parseMember_render (renderMoreMembers kvs ++ cs) kv n (by omega)
      have hkvs := parseMoreMembers_render cs kvs n (by omega)
      simp only [renderMoreMembers, List.cons_append, List.append_assoc, parseMoreMembers]
      rw [hkv]
      simp [hkvs]

theorem parseMember_render (cs : List Char) :
    ∀ (kv : String × Json) (n : Nat), (renderMember kv).length ≤ n →
      parseMember n (renderMember kv ++ cs) = some (kv, cs)
  | (k, v), n, h => by
    simp only [renderMember, List.length_cons, List.length_append] at h
    obtain _ | n := n
    · omega
    · have hk := parseChars_renderChars k.toList (':' :: (render v ++ cs)) n (by omega)
      have hv := parseValue_render cs v n (by omega)
      simp only [renderMember, List.cons_append, List.append_assoc, parseMember]
      rw [hk]
      simp [hv]

end

/-- A rendered value is decoded to itself. -/
theorem parse_render (j : Json) : parse (render j) = some j := by
  have h := parseValue_render [] j (render j).length (Nat.le_refl _)
  rw [List.append_nil] at h
  rw [parse, h]

/-- A value with anything after it is rejected. -/
theorem parse_render_append (j : Json) {cs : List Char} (hcs : cs ≠ []) :
    parse (render j ++ cs) = none := by
  obtain ⟨c, cs', rfl⟩ := List.exists_cons_of_ne_nil hcs
  rw [parse, parseValue_render _ j _ (by simp)]

theorem render_ne_nil (j : Json) : render j ≠ [] := List.length_pos_iff.mp (render_pos j)

end Json

end CtrlMesh.Framework
