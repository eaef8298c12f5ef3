import Refract.Lib.Ecma

/-!
# Encoding oracle values

`scaleOracleValue` turns the number of a reading into the fixed-point integer of the contract, and
`buildPublishPayload` lays out the bytes that quorum submitters sign.
-/

namespace Refract.Oracle

open Lib

/-! ## Fixed-point values -/

def notAnInteger (text : String) : JsError :=
  .rangeError
    ("The number " ++ text ++ " cannot be converted to a BigInt because it is not an integer")

/-- `value * scale`, in doubles. -/
def timesScale (scale : ℚ) : JsNumber → JsNumber
  | .finite q => toDouble (q * scale)
  | n => n

/-- `BigInt(Math.round(value * scale))` -/
def scaleBy (scale : ℚ) (value : JsNumber) : Except JsError Int :=
  match timesScale scale value with
  | .finite q => .ok (mathRound q)
  | .nan => .error (notAnInteger "NaN")
  | .posInf => .error (notAnInteger "Infinity")
  | .negInf => .error (notAnInteger "-Infinity")

def scaleOracleValue (coverageType : String) (value : JsNumber) : Except JsError Int :=
  if coverageType = "StablecoinDepeg" then scaleBy 10000000 value
  else if coverageType = "MarketCrash" ∨ coverageType = "SmartContractRisk" then scaleBy 100 value
  else if coverageType = "LiquidationShield" then scaleBy 10000 value
  else if coverageType = "FlightDelay" then scaleBy 1 value
  else if coverageType = "Composite" then
    .error (.error "Composite coverageType requires encodeCompositeValue (fixed-decimal string)")
  else .error (.error ("Unknown coverageType for oracle scaling: " ++ coverageType))

def coverageTypeNumbers : List (String × Nat) :=
  [("StablecoinDepeg", 0), ("MarketCrash", 1), ("LiquidationShield", 2), ("SmartContractRisk", 3),
   ("FlightDelay", 4), ("Composite", 5)]

def coverageTypeToU32 (coverageType : String) : Except JsError Nat :=
  match coverageTypeNumbers.lookup coverageType with
  | some id => .ok id
  | none => .error (.error ("Unknown coverageType: " ++ coverageType))

/-! ## Signed bytes -/

/-- The lowest `width` bytes of a number, the most significant one first. -/
def bigEndian (width n : Nat) : List UInt8 :=
  (List.range width).reverse.map fun i => UInt8.ofNat (n / 256 ^ i % 256)

def utf8Bytes (s : String) : List UInt8 := s.toList.flatMap String.utf8EncodeChar

/-- The two's complement of an `i128`: `writeBigUInt64BE` of its upper and its lower half. -/
def i128Bytes (n : Int) : List UInt8 :=
  bigEndian 8 (n / 2 ^ 64 % 2 ^ 64).toNat ++ bigEndian 8 (n % 2 ^ 64).toNat

/-- A field and its length before it; `writeUInt32BE` throws for a length of more than 32 bits. -/
def payloadPart (bytes : List UInt8) : Except JsError (List UInt8) :=
  if bytes.length < 2 ^ 32 then .ok (bigEndian 4 bytes.length ++ bytes)
  else .error (.rangeError ("The value of \"value\" is out of range. It must be >= 0 and <= " ++
    "4294967295. Received " ++ toString bytes.length))

def buildPublishPayload (oracleContractId coverageType : String) (value : JsNumber)
    (decisionId : String) : Except JsError (List UInt8) := do
  let scaled ← scaleOracleValue coverageType value
  let coverageNumber ← coverageTypeToU32 coverageType
  let parts ← collect ([utf8Bytes "refract-oracle-v1", utf8Bytes oracleContractId,
    bigEndian 4 coverageNumber, i128Bytes scaled, utf8Bytes decisionId].map payloadPart)
  return parts.flatten

end Refract.Oracle
