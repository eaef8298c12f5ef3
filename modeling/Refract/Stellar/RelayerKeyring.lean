import Refract.Lib.Tables

/-!
# The relayer's keyring

`RelayerKeyring` loads keys from a keystore file and reads the file again when its modification time
has changed; what cannot be read leaves the keys as they are. It signs with active keys only and
knows how many signatures a feed needs. The cryptography is a parameter: a signature made with a
secret verifies under the public key of that secret.

Every method looks at the file first (`refreshIfChanged`); what it then sees is an argument
(`KeystoreRead`). Ids are the keys of a keyring, whatever the file says (`uniqueIds_loadKeys`).
-/

namespace Refract.Stellar

open Lib

/-! ## Environment -/

structure KeyringEnv where
  /-- Variables of the environment. -/
  keystorePath : Option String
  relayerSecret : Option String
  stellarNetwork : Option String
  quorumThresholds : Option String
  nonPayoutFeeds : Option String
  defaultThreshold : Option String
  payoutThreshold : Option String
  /-- `Number(text)` and `text.toLowerCase()`. -/
  toNumber : String → JsNumber
  toLowerCase : String → String
  isValidSeed : String → Bool
  publicKeyOf : String → String
  sha256 : List UInt8 → List UInt8
  sign : String → List UInt8 → String
  verifies : String → List UInt8 → String → Bool
  verifies_sign : ∀ secret digest, verifies (publicKeyOf secret) digest (sign secret digest) = true

/-- A variable that is set to more than blanks. -/
def trimmedVariable (value : Option String) : Option String := (value.map trim).filter (· ≠ "")

/-! ## Loading keys -/

structure LoadedKey where
  id : String
  network : String
  active : Bool
  secret : String

/-- An entry of the file; `active` is false only if the file says so. -/
structure RawEntry where
  id : Option String
  secret : Option String
  network : Option String
  active : Bool

/-- What a refresh sees: the modification time, and if it loads the keys, the time it then finds and
the entries. Nothing is seen where a call throws: the file cannot be read, its text is not JSON, or
an entry is not of this shape. -/
structure KeystoreRead where
  stat : Option ℚ
  loadStat : Option ℚ
  entries : Option (List RawEntry)

structure Keyring where
  keys : List LoadedKey
  mtimeMs : ℚ

/-- `NETWORK_PASSPHRASES[network]` is set: the names in the table, and the properties that every
object has and whose names are in lower case. -/
def isKnownNetwork (network : String) : Bool :=
  network ∈ ["testnet", "public", "mainnet", "futurenet", "constructor", "__proto__"]

section Loading

variable (env : KeyringEnv)

def networkOf (entry : RawEntry) : String :=
  let default := env.toLowerCase (trim (env.stellarNetwork.getD "testnet"))
  env.toLowerCase (trim (entry.network.getD default))

/-- The key of an entry that is not malformed. -/
def keyOf (entry : RawEntry) : Option LoadedKey :=
  match (entry.id.map trim).filter (· ≠ ""), entry.secret.filter (· ≠ "") with
  | some id, some secret =>
    if env.isValidSeed secret then some ⟨id, networkOf env entry, entry.active, secret⟩ else none
  | _, _ => none

/-- The loop of `loadKeys`. -/
def loadEntries : List LoadedKey → List RawEntry → List LoadedKey
  | loaded, [] => loaded
  | loaded, entry :: entries =>
    match keyOf env entry with
    | none => loadEntries loaded entries
    | some key =>
      if loaded.any (·.id = key.id) || !isKnownNetwork key.network then
        loadEntries loaded entries
      else loadEntries (loaded ++ [key]) entries

/-- `reload` -/
def loadKeys (k : Keyring) (read : KeystoreRead) : Keyring :=
  match trimmedVariable env.keystorePath with
  | some _ =>
    match read.loadStat, read.entries with
    | none, _ => k
    | some mtimeMs, none => { k with mtimeMs }
    | some mtimeMs, some entries => ⟨loadEntries env [] entries, mtimeMs⟩
  | none =>
    match trimmedVariable env.relayerSecret with
    | some secret =>
      { k with keys := loadEntries env [] [⟨some "dev-default", some secret, none, true⟩] }
    | none => { k with keys := [] }

def refreshIfChanged (k : Keyring) (read : KeystoreRead) : Keyring :=
  match trimmedVariable env.keystorePath, read.stat with
  | some _, some mtimeMs => if mtimeMs = k.mtimeMs then k else loadKeys env k read
  | _, _ => k

/-- The keyring that the constructor makes. -/
def Keyring.new (read : KeystoreRead) : Keyring := loadKeys env ⟨[], 0⟩ read

/-! ### Ids are unique -/

/-- No two keys have one id. -/
def Keyring.UniqueIds (k : Keyring) : Prop := UniqueKey LoadedKey.id k.keys

variable {env}

theorem uniqueKey_loadEntries (entries : List RawEntry) {loaded : List LoadedKey}
    (h : UniqueKey LoadedKey.id loaded) :
    UniqueKey LoadedKey.id (loadEntries env loaded entries) := by
  induction entries generalizing loaded with
  | nil => exact h
  | cons _ _ ih =>
    simp only [loadEntries]
    split
    · exact ih h
    split
    · exact ih h
    rename_i hfresh
    simp only [Bool.or_eq_true, not_or, List.any_eq_true, not_exists, not_and,
      decide_eq_true_eq] at hfresh
    exact ih (h.insert hfresh.1)

theorem uniqueIds_loadKeys {k : Keyring} (h : k.UniqueIds) (read : KeystoreRead) :
    (loadKeys env k read).UniqueIds := by
  have hemp : UniqueKey LoadedKey.id [] := List.nodup_nil
  simp only [loadKeys]
  split
  · split
    · exact h
    · exact h
    · exact uniqueKey_loadEntries _ hemp
  · split
    · exact uniqueKey_loadEntries _ hemp
    · exact hemp

theorem uniqueIds_new (read : KeystoreRead) : (Keyring.new env read).UniqueIds := by
  have hemp : Keyring.UniqueIds ⟨[], 0⟩ := List.nodup_nil
  exact uniqueIds_loadKeys hemp read

theorem uniqueIds_refreshIfChanged {k : Keyring} (h : k.UniqueIds) (read : KeystoreRead) :
    (refreshIfChanged env k read).UniqueIds := by
  simp only [refreshIfChanged]
  split
  · split
    · exact h
    · exact uniqueIds_loadKeys h read
  · exact h

end Loading

/-! ## Signing -/

structure KeySignature where
  keyId : String
  publicKey : String
  signature : String

/-- `activeKeys(network)` -/
def Keyring.activeKeys (k : Keyring) (env : KeyringEnv) (network : String) : List LoadedKey :=
  k.keys.filter fun key => key.active && key.network = env.toLowerCase network

def Keyring.isActive (k : Keyring) (keyId : String) : Bool :=
  k.keys.any fun key => key.id = keyId && key.active

def LoadedKey.sign (key : LoadedKey) (env : KeyringEnv) (payload : List UInt8) : KeySignature :=
  ⟨key.id, env.publicKeyOf key.secret, env.sign key.secret (env.sha256 payload)⟩

/-- `signWith`, which throws if no active key has the id. -/
def Keyring.signWith (k : Keyring) (env : KeyringEnv) (keyId : String) (payload : List UInt8) :
    Option KeySignature :=
  (k.keys.find? fun key => key.id = keyId && key.active).map (·.sign env payload)

/-! ## Thresholds -/

/-- `Number.isInteger(n) && n >= 1` -/
def positiveInteger? : JsNumber → Option Nat
  | .finite q => if q.den = 1 ∧ 1 ≤ q then some q.num.toNat else none
  | _ => none

/-- `text.split(separator)`, each part trimmed. -/
def splitTrimmed (separator : Char) (text : String) : List String :=
  (text.toList.splitOn separator).map fun part => trim (String.ofList part)

/-- The threshold that a pair `Feed=N` gives to a feed. -/
def thresholdOf (env : KeyringEnv) (feed pair : String) : Option Nat :=
  match splitTrimmed '=' pair with
  | name :: n :: _ => if name = feed then positiveInteger? (env.toNumber n) else none
  | _ => none

def requiredSignatures (env : KeyringEnv) (feed : String) : Nat :=
  let pairs := ((env.quorumThresholds.getD "").toList.splitOn ',').map String.ofList
  match pairs.findSome? (thresholdOf env feed) with
  | some n => n
  | none =>
    let isNonPayout := feed ∈ splitTrimmed ',' (env.nonPayoutFeeds.getD "")
    let fallback := if isNonPayout then 1 else 2
    match if isNonPayout then env.defaultThreshold else env.payoutThreshold with
    | some raw => (positiveInteger? (env.toNumber raw)).getD fallback
    | none => fallback

end Refract.Stellar
