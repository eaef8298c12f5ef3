import Refract.Lib.Ecma

/-!
# Canonical JSON text

JSON values and their canonical text: object keys sorted by code units, no white space, strings
quoted as `JSON.stringify` quotes them. Non-finite numbers are rejected; a value without them
always has a text (`canonicalJson_ok`). Keys are assumed not to be array indices, whose order in
an object is not the order of insertion.
-/

namespace Refract.Lib

/-- A JSON value; the numbers are those of the language, so they need not be finite. -/
inductive Json where
  | null
  | bool (b : Bool)
  | number (n : JsNumber)
  | string (s : String)
  | array (items : List Json)
  | object (fields : List (String × Json))

/-- One hexadecimal digit. -/
def hexDigit (n : Nat) : Char := if n < 10 then Char.ofNat (48 + n) else Char.ofNat (87 + n)

/-- The characters of a JSON string that stand for `c`. -/
def quoteChar (c : Char) : List Char :=
  let escape (letter : Nat) : List Char := [Char.ofNat 0x5C, Char.ofNat letter]
  match c.toNat with
  | 0x22 => escape 0x22
  | 0x5C => escape 0x5C
  | 0x08 => escape 0x62
  | 0x09 => escape 0x74
  | 0x0A => escape 0x6E
  | 0x0C => escape 0x66
  | 0x0D => escape 0x72
  | n =>
    if n < 0x20 then escape 0x75 ++ [hexDigit 0, hexDigit 0, hexDigit (n / 16), hexDigit (n % 16)]
    else [c]

/-- A quoted JSON string. -/
def quoteJson (s : String) : String := "\"" ++ String.ofList (s.toList.flatMap quoteChar) ++ "\""

/-- An object field with its key; a field that failed stays failed. -/
def fieldText (field : String × Except JsError String) : Except JsError String :=
  field.2.map fun text => quoteJson field.1 ++ ":" ++ text

mutual

/-- The canonical text of a value. -/
def canonicalJson (host : Host) : Json → Except JsError String
  | .null => .ok "null"
  | .bool b => .ok (if b then "true" else "false")
  | .number (.finite q) => .ok (host.numberToString q)
  | .number n => .error (.error ("canonicalJson: non-finite number " ++ host.showNumber n))
  | .string s => .ok (quoteJson s)
  | .array items =>
    (collect (canonicalItems host items)).map fun texts =>
      "[" ++ String.intercalate "," texts ++ "]"
  | .object fields =>
    -- Keys are sorted before the fields are visited, so the exception is that of the first key.
    let sorted := sortBy (fun a b => compareUnits a.1 b.1) (canonicalFields host fields)
    (collect (sorted.map fieldText)).map fun texts =>
      "\x7b" ++ String.intercalate "," texts ++ "\x7d"

def canonicalItems (host : Host) : List Json → List (Except JsError String)
  | [] => []
  | item :: rest => canonicalJson host item :: canonicalItems host rest

def canonicalFields (host : Host) : List (String × Json) → List (String × Except JsError String)
  | [] => []
  | (key, value) :: rest => (key, canonicalJson host value) :: canonicalFields host rest

end

mutual

/-- No number inside is infinite or `NaN`. -/
def Json.Finite : Json → Prop
  | .number n => n.isFinite
  | .array items => FiniteItems items
  | .object fields => FiniteFields fields
  | _ => True

def FiniteItems : List Json → Prop
  | [] => True
  | item :: rest => item.Finite ∧ FiniteItems rest

def FiniteFields : List (String × Json) → Prop
  | [] => True
  | (_, value) :: rest => value.Finite ∧ FiniteFields rest

end

theorem finiteItems_iff (items : List Json) : FiniteItems items ↔ ∀ item ∈ items, item.Finite := by
  induction items with
  | nil => simp [FiniteItems]
  | cons _ _ ih => simp [FiniteItems, ih]

mutual

/-- A value without non-finite numbers has a canonical text. -/
theorem canonicalJson_ok (host : Host) :
    (j : Json) → j.Finite → ∃ text, canonicalJson host j = .ok text
  | .null, _ => ⟨_, by rw [canonicalJson]⟩
  | .bool _, _ => ⟨_, by rw [canonicalJson]⟩
  | .number (.finite _), _ => ⟨_, by rw [canonicalJson]⟩
  | .number .nan, h => by simp [Json.Finite, JsNumber.isFinite, JsNumber.finite?] at h
  | .number .posInf, h => by simp [Json.Finite, JsNumber.isFinite, JsNumber.finite?] at h
  | .number .negInf, h => by simp [Json.Finite, JsNumber.isFinite, JsNumber.finite?] at h
  | .string _, _ => ⟨_, by rw [canonicalJson]⟩
  | .array items, h => by
      rw [Json.Finite] at h
      obtain ⟨texts, htexts⟩ := collect_ok (canonicalItems_ok host items h)
      exact ⟨_, by rw [canonicalJson, htexts, Except.map]⟩
  | .object fields, h => by
      rw [Json.Finite] at h
      have hfields := canonicalFields_ok host fields h
      have hok : ∀ r ∈ (sortBy (fun a b => compareUnits a.1 b.1)
          (canonicalFields host fields)).map fieldText, ∃ a, r = .ok a := by
        intro r hr
        obtain ⟨field, hmem, rfl⟩ := List.mem_map.1 hr
        obtain ⟨text, htext⟩ := hfields field (mem_sortBy.1 hmem)
        exact ⟨_, by rw [fieldText, htext, Except.map]⟩
      obtain ⟨texts, htexts⟩ := collect_ok hok
      exact ⟨_, by rw [canonicalJson, htexts, Except.map]⟩

theorem canonicalItems_ok (host : Host) :
    (items : List Json) → FiniteItems items → ∀ r ∈ canonicalItems host items, ∃ text, r = .ok text
  | [], _ => by simp [canonicalItems]
  | item :: rest, h => by
      rw [FiniteItems] at h
      rw [canonicalItems]
      intro r hr
      rcases List.mem_cons.1 hr with rfl | hrest
      · exact canonicalJson_ok host item h.1
      · exact canonicalItems_ok host rest h.2 r hrest

theorem canonicalFields_ok (host : Host) :
    (fields : List (String × Json)) → FiniteFields fields →
      ∀ r ∈ canonicalFields host fields, ∃ text, r.2 = .ok text
  | [], _ => by simp [canonicalFields]
  | (key, value) :: rest, h => by
      rw [FiniteFields] at h
      rw [canonicalFields]
      intro r hr
      rcases List.mem_cons.1 hr with rfl | hrest
      · exact canonicalJson_ok host value h.1
      · exact canonicalFields_ok host rest h.2 r hrest

end

end Refract.Lib
