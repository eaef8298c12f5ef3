import Mathlib.Data.List.Sort
import Mathlib.Data.Rat.Floor
import Mathlib.Tactic.Linarith

/-!
# The ECMAScript values a program computes with

The parts of the ECMAScript standard library that the modelled sources call, with exact rational
arithmetic in place of binary floating point. Finite numbers are rationals; `JsNumber` adds the
three non-finite numbers, and `JsValue` the values an unchecked field can hold. `toISOString` is
the `Date` method, defined on the time range a `Date` can hold. `sortBy` is the stable
`Array.prototype.sort` with a comparator; `codeUnits` gives the UTF-16 code units that the
default string comparison reads.

Printing a number and comparing two strings in the locale depend on the host and are parameters
(`Host`).
-/

namespace Refract.Lib

open List

universe u

/-- Exceptions thrown by the standard library or by the program, with their message. -/
inductive JsError where
  | typeError (message : String)
  | rangeError (message : String)
  | error (message : String)
  deriving DecidableEq, Repr

/-- The text of a caught exception. -/
def JsError.message : JsError → String
  | .typeError m => m
  | .rangeError m => m
  | .error m => m

/-- A number: finite, or one of the three non-finite ones. -/
inductive JsNumber where
  | finite (q : ℚ)
  | nan
  | posInf
  | negInf
  deriving DecidableEq, Repr

namespace JsNumber

/-- The finite value, if there is one. -/
def finite? : JsNumber → Option ℚ
  | finite q => some q
  | _ => none

/-- `Number.isFinite`. -/
def isFinite (n : JsNumber) : Bool := n.finite?.isSome

/-- The operator `<`; every comparison with `NaN` is false. -/
def lt : JsNumber → JsNumber → Bool
  | nan, _ => false
  | _, nan => false
  | finite p, finite q => decide (p < q)
  | finite _, posInf => true
  | negInf, finite _ => true
  | negInf, posInf => true
  | _, _ => false

/-- The operator `<=`; every comparison with `NaN` is false. -/
def le : JsNumber → JsNumber → Bool
  | nan, _ => false
  | _, nan => false
  | m, n => !n.lt m

/-- The sign of a difference, as a comparator is read: `NaN` counts as zero. -/
def compareDiff (m n : JsNumber) : Ordering :=
  if m.lt n then .lt else if n.lt m then .gt else .eq

theorem lt_of_not_le {m n : JsNumber} (hm : m ≠ nan) (hn : n ≠ nan) (h : m.le n = false) :
    n.lt m = true := by
  cases m <;> cases n <;> simp_all [le]

theorem lt_trans {m n k : JsNumber} (hmn : m.lt n = true) (hnk : n.lt k = true) :
    m.lt k = true := by
  cases m <;> cases n <;> cases k <;> simp_all [lt]
  exact hmn.trans hnk

/-- The sum with a finite number. -/
def addFinite (n : JsNumber) (q : ℚ) : JsNumber :=
  match n with
  | finite p => finite (p + q)
  | m => m

theorem finite?_eq_some {n : JsNumber} {q : ℚ} : n.finite? = some q ↔ n = finite q := by
  cases n <;> simp [finite?]

end JsNumber

/-- What `in` finds in every object literal: the names of `Object.prototype`. -/
def objectPrototypeKeys : List String :=
  ["constructor", "__defineGetter__", "__defineSetter__", "hasOwnProperty", "__lookupGetter__",
   "__lookupSetter__", "isPrototypeOf", "propertyIsEnumerable", "toString", "valueOf", "__proto__",
   "toLocaleString"]

/-- A value in a field the program has not checked. `unprintable` is an object on which `String`
throws, and `other` stands for the remaining values, with the text `String` gives for them. -/
inductive JsValue where
  | undefined
  | null
  | bool (b : Bool)
  | number (n : JsNumber)
  | string (s : String)
  | unprintable
  | other (text : String)

namespace JsValue

/-- `String` does not throw. -/
def isPrintable : JsValue → Bool
  | unprintable => false
  | _ => true

/-- The value of a number that `Number.isFinite` accepts. -/
def finiteNumber? : JsValue → Option ℚ
  | number n => n.finite?
  | _ => none

/-- The text of a string value. -/
def string? : JsValue → Option String
  | string s => some s
  | _ => none

end JsValue

/-- What the host environment decides: how a number prints, and how the locale orders strings. -/
structure Host where
  numberToString : ℚ → String
  localeCompare : String → String → Ordering

namespace Host

variable (host : Host)

/-- `String(n)` for a number. -/
def showNumber : JsNumber → String
  | .finite q => host.numberToString q
  | .nan => "NaN"
  | .posInf => "Infinity"
  | .negInf => "-Infinity"

/-- `String(v)`, where it does not throw. -/
def showValue : JsValue → String
  | .undefined => "undefined"
  | .null => "null"
  | .bool b => if b then "true" else "false"
  | .number n => host.showNumber n
  | .string s => s
  | .unprintable => ""
  | .other text => text

end Host

/-! ## Throwing callbacks -/

section Collect

variable {α β : Type u} {ε : Type u}

@[simp] theorem exceptOk_bind (a : α) (f : α → Except ε β) : (Except.ok a >>= f) = f a := rfl

/-- A computation that returns has returned from its first part. -/
theorem exceptBind_eq_ok {x : Except ε α} {f : α → Except ε β} {b : β}
    (h : (x >>= f) = .ok b) : ∃ a, x = .ok a ∧ f a = .ok b := by
  rcases x with e | a
  · cases h
  · exact ⟨a, rfl, h⟩

theorem exceptMap_eq_ok {ε : Type*} {x : Except ε α} {f : α → β} {b : β}
    (h : x.map f = .ok b) : ∃ a, x = .ok a ∧ f a = b := by
  rcases x with e | a
  · cases h
  · exact ⟨a, rfl, Except.ok.inj h⟩

theorem exists_of_isOk {x : Except ε α} (h : x.isOk = true) : ∃ a, x = .ok a := by
  cases x with
  | ok a => exact ⟨a, rfl⟩
  | error => cases h

theorem eq_ok_get {x : Except ε α} (h : x.toOption.isSome = true) : x = .ok (x.toOption.get h) := by
  cases x with
  | error => cases h
  | ok => rfl

/-- The results of a mapped array, or the exception of the first callback that throws. -/
def collect : List (Except JsError α) → Except JsError (List α)
  | [] => .ok []
  | .error e :: _ => .error e
  | .ok a :: rest => (collect rest).map (a :: ·)

theorem collect_ok {results : List (Except JsError α)} (h : ∀ r ∈ results, ∃ a, r = .ok a) :
    ∃ values, collect results = .ok values := by
  induction results with
  | nil => exact ⟨[], rfl⟩
  | cons r _ ih =>
    obtain ⟨a, rfl⟩ := h r mem_cons_self
    obtain ⟨values, hvalues⟩ := ih fun r hr => h r (mem_cons_of_mem _ hr)
    exact ⟨a :: values, by simp [collect, hvalues, Except.map]⟩

theorem collect_map_ok {γ : Type u} {f : γ → Except JsError α} {g : γ → α} {xs : List γ}
    (h : ∀ x ∈ xs, f x = .ok (g x)) : collect (xs.map f) = .ok (xs.map g) := by
  induction xs with
  | nil => rfl
  | cons x _ ih =>
    have hrest := ih fun y hy => h y (mem_cons_of_mem _ hy)
    rw [map_cons, h x mem_cons_self, collect, hrest]
    rfl

variable {results : List (Except JsError α)} {values : List α} (h : collect results = .ok values)

include h

/-- What is collected are the results of the callbacks. -/
theorem eq_of_collect : results = values.map .ok := by
  induction results generalizing values with
  | nil =>
    cases h
    rfl
  | cons r rest ih =>
    cases r with
    | error => cases h
    | ok a =>
      obtain ⟨tail, hrest, rfl⟩ := exceptMap_eq_ok h
      rw [map_cons, ih hrest]

theorem mem_of_collect {a : α} (ha : a ∈ values) : .ok a ∈ results := by
  rw [eq_of_collect h]
  exact mem_map_of_mem ha

theorem exists_of_collect {r : Except JsError α} (hr : r ∈ results) :
    ∃ a, r = .ok a ∧ a ∈ values := by
  rw [eq_of_collect h] at hr
  obtain ⟨a, ha, rfl⟩ := mem_map.1 hr
  exact ⟨a, rfl, ha⟩

end Collect

/-! ## Sorting and strings -/

variable {α : Type u}

/-- `Array.prototype.sort` with a comparator: a stable sort. -/
def sortBy (cmp : α → α → Ordering) (xs : List α) : List α :=
  xs.insertionSort fun a b => (cmp a b).isLE

variable {cmp : α → α → Ordering}

theorem mem_sortBy {xs : List α} {x : α} : x ∈ sortBy cmp xs ↔ x ∈ xs :=
  mem_insertionSort _

theorem sortBy_perm {xs : List α} : (sortBy cmp xs).Perm xs :=
  perm_insertionSort _ _

theorem sortBy_eq_nil {xs : List α} : sortBy cmp xs = [] ↔ xs = [] := by
  rw [← length_eq_zero_iff, sortBy_perm.length_eq, length_eq_zero_iff]

@[simp] theorem sortBy_length (cmp : α → α → Ordering) (xs : List α) :
    (sortBy cmp xs).length = xs.length :=
  length_insertionSort _ _

/-- `Math.round`. -/
def mathRound (q : ℚ) : Int := (q + 1 / 2).floor

/-- The exponent of the largest power of two up to `|q|`, for a `q` other than 0. -/
def binaryExponent (q : ℚ) : Int :=
  let k : Int := q.num.natAbs.log2 - q.den.log2
  if |q| < 2 ^ k then k - 1 else k

/-- The nearest integer, and of two the even one. -/
def roundHalfEven (q : ℚ) : Int :=
  let below := q.floor
  if q - below < 1 / 2 ∨ q - below = 1 / 2 ∧ below % 2 = 0 then below else below + 1

/-- The double that an exact result is rounded to. -/
def toDouble (q : ℚ) : JsNumber :=
  let ulp : ℚ := 2 ^ max (binaryExponent q - 52) (-1074)
  let rounded := roundHalfEven (q / ulp) * ulp
  if 2 ^ 1024 ≤ rounded then .posInf else if rounded ≤ -2 ^ 1024 then .negInf else .finite rounded

/-- The UTF-16 code units of a code point. -/
def pointUnits (n : Nat) : List Nat :=
  if n < 0x10000 then [n]
  else [0xD800 + (n - 0x10000) / 0x400, 0xDC00 + (n - 0x10000) % 0x400]

/-- The UTF-16 code units of a string. -/
def codeUnits (s : String) : List Nat := s.toList.flatMap fun c => pointUnits c.toNat

/-- A string that need not be well formed, as its code points: a surrogate among them stands
alone. -/
abbrev JsText := List Nat

/-- The code points of a string. -/
def points (s : String) : JsText := s.toList.map Char.toNat

def isSurrogate (c : Nat) : Bool := 0xD800 ≤ c && c ≤ 0xDFFF

/-- The text that is left when UTF-8 replaces lone surrogates; it determines the bytes, and they
determine it. -/
def toWellFormed (text : JsText) : JsText := text.map fun c => if isSurrogate c then 0xFFFD else c

/-- The default string comparison: lexicographic on code units. -/
def compareUnits (a b : String) : Ordering := compare (codeUnits a) (codeUnits b)

/-- `slice(0, n)`, for a text of characters of one code unit each. -/
def takeChars (n : Nat) (s : String) : String := String.ofList (s.toList.take n)

/-- White space and line terminators, which `trim` removes. -/
def isSpace (c : Char) : Bool :=
  c.toNat ∈ [0x9, 0xA, 0xB, 0xC, 0xD, 0x20, 0xA0, 0x1680, 0x2028, 0x2029, 0x202F, 0x205F, 0x3000,
    0xFEFF] || (0x2000 ≤ c.toNat && c.toNat ≤ 0x200A)

/-- `trim`. -/
def trim (s : String) : String :=
  String.ofList ((s.toList.dropWhile isSpace).reverse.dropWhile isSpace).reverse

/-- `trim` leaves nothing. -/
def isBlank (s : String) : Bool := s.toList.all isSpace

/-- A text is cut in one way at its last separator. -/
theorem append_separator_inj {α : Type} {sep : α} {a b s t : List α} (hs : sep ∉ s) (ht : sep ∉ t)
    (h : a ++ sep :: s = b ++ sep :: t) : a = b ∧ s = t := by
  rcases append_eq_append_iff.1 h with ⟨c, hb, hcut⟩ | ⟨c, ha, hcut⟩
  all_goals
    cases c with
    | nil => simp_all
    | cons _ c =>
      rw [cons_append, List.cons.injEq] at hcut
      exact absurd (hcut.2 ▸ mem_append_right c mem_cons_self) (by assumption)

/-- A text is cut in one way at its first separator. -/
theorem separator_append_inj {α : Type} {sep : α} {a b s t : List α} (ha : sep ∉ a) (hb : sep ∉ b)
    (h : a ++ sep :: s = b ++ sep :: t) : a = b ∧ s = t := by
  have hreverse := congrArg reverse h
  simp only [reverse_append, reverse_cons, append_assoc, singleton_append] at hreverse
  have hcut := append_separator_inj (by simpa using ha) (by simpa using hb) hreverse
  exact ⟨reverse_injective hcut.2, reverse_injective hcut.1⟩

/-! ## Dates -/

/-- The largest distance from the epoch, in milliseconds, that a `Date` can hold. -/
def maxTimeValue : ℚ := 8640000000000000

/-- `TimeClip`: the integral time value, or `none` outside the range of a `Date`. -/
def timeClip (t : ℚ) : Option Int :=
  if |t| ≤ maxTimeValue then some (t.num.tdiv t.den) else none

/-- Decimal digits of `n`, padded on the left with zeros to `width` digits. -/
def padNat (width n : Nat) : String :=
  let digits := toString n
  String.ofList (List.replicate (width - digits.length) '0') ++ digits

/-- Year, month and day of a day count from 1970-01-01 in the proleptic Gregorian calendar. -/
def civilFromDays (days : Int) : Int × Nat × Nat :=
  let z := days + 719468
  let era := z / 146097
  let doe := (z - era * 146097).toNat
  let yoe := (doe - doe / 1460 + doe / 36524 - doe / 146096) / 365
  let doy := doe - (365 * yoe + yoe / 4 - yoe / 100)
  let mp := (5 * doy + 2) / 153
  let day := doy - (153 * mp + 2) / 5 + 1
  let month := if mp < 10 then mp + 3 else mp - 9
  let year := (yoe : Int) + era * 400 + (if month ≤ 2 then 1 else 0)
  (year, month, day)

/-- The year field of an ISO string: four digits, or a sign and six digits. -/
def isoYear (year : Int) : String :=
  if 0 ≤ year ∧ year ≤ 9999 then padNat 4 year.toNat
  else (if year < 0 then "-" else "+") ++ padNat 6 year.natAbs

/-- The ISO string of an integral time value. -/
def isoOfMillis (ms : Int) : String :=
  let days := ms / 86400000
  let rest := (ms - days * 86400000).toNat
  let (year, month, day) := civilFromDays days
  isoYear year ++ "-" ++ padNat 2 month ++ "-" ++ padNat 2 day ++ "T" ++
    padNat 2 (rest / 3600000) ++ ":" ++ padNat 2 (rest / 60000 % 60) ++ ":" ++
    padNat 2 (rest / 1000 % 60) ++ "." ++ padNat 3 (rest % 1000) ++ "Z"

/-- `new Date(t).toISOString()`. -/
def toISOString (t : ℚ) : Except JsError String :=
  match timeClip t with
  | some ms => .ok (isoOfMillis ms)
  | none => .error (.rangeError "Invalid time value")

theorem toISOString_of_abs_le {t : ℚ} (h : |t| ≤ maxTimeValue) : ∃ s, toISOString t = .ok s := by
  refine ⟨isoOfMillis (t.num.tdiv t.den), ?_⟩
  simp only [toISOString, timeClip, if_pos h]

example : toISOString 1760000000000 = .ok "2025-10-09T08:53:20.000Z" := by decide +kernel

/-! ## A concrete host -/

/-- Digits after the decimal point of `r / d` with `r < d`, at most `fuel` of them. -/
def fractionDigits : Nat → Nat → Nat → List Char
  | 0, _, _ => []
  | fuel + 1, r, d =>
    if r = 0 then []
    else Char.ofNat (48 + r * 10 / d) :: fractionDigits fuel (r * 10 % d) d

/-- Decimal notation, as a number prints between `1e-6` and `1e21` when it has at most seventeen
digits. -/
def decimalString (q : ℚ) : String :=
  let digits := fractionDigits 17 (q.num.natAbs % q.den) q.den
  (if q < 0 then "-" else "") ++ toString (q.num.natAbs / q.den) ++
    (if digits.isEmpty then "" else "." ++ String.ofList digits)

/-- A host that prints numbers in decimal notation and orders strings by code unit. It agrees with
the usual locales on identifiers of digits and of letters of one case. -/
def plainHost : Host where
  numberToString := decimalString
  localeCompare := compareUnits

theorem isDigit_of_mem_fractionDigits (fuel : Nat) {r d : Nat} (h : r < d) {c : Char}
    (hc : c ∈ fractionDigits fuel r d) : c.isDigit := by
  induction fuel generalizing r with
  | zero => simp [fractionDigits] at hc
  | succ _ ih =>
    unfold fractionDigits at hc
    split at hc
    · simp at hc
    rcases mem_cons.1 hc with rfl | htail
    · have hlt : r * 10 / d < 10 := by
        rw [Nat.div_lt_iff_lt_mul (by omega)]
        omega
      have hdigit : ∀ n < 10, (Char.ofNat (48 + n)).isDigit := by decide
      exact hdigit _ hlt
    · exact ih (Nat.mod_lt _ (by omega)) htail

/-- A printed number holds digits, a sign and a point. -/
theorem notMem_decimalString {c : Char} (hdigit : ¬c.isDigit) (hpunct : c ∉ ['-', '.']) (q : ℚ) :
    c ∉ (decimalString q).toList := by
  have hint : ∀ n : Nat, c ∉ (toString n).toList := by
    intro n hn
    have hmem : c ∈ Nat.toDigits 10 n := by simpa [toString, Nat.repr] using hn
    exact hdigit (Nat.isDigit_of_mem_toDigits (by omega) (by omega) hmem)
  intro hmem
  unfold decimalString at hmem
  simp only [String.toList_append, mem_append] at hmem
  simp only [mem_cons, not_mem_nil, or_false, not_or] at hpunct
  rcases hmem with (hsign | hwhole) | hfrac
  · split at hsign <;> simp [hpunct] at hsign
  · exact hint _ hwhole
  · split at hfrac
    · simp at hfrac
    simp only [String.toList_append, mem_append, String.toList_ofList] at hfrac
    rcases hfrac with hpoint | hdigits
    · simp [hpunct] at hpoint
    · exact hdigit (isDigit_of_mem_fractionDigits 17 (Nat.mod_lt _ q.den_pos) hdigits)

example : decimalString (-1 / 8) = "-0.125" := by decide +kernel

end Refract.Lib
