import NzbNntp.Error

/-! Overview formats and lossless overview rows (`overview.rs`). -/

namespace NzbNntp

structure OverviewFormat where
  fields : List Bytes
  deriving DecidableEq

structure LosslessOverviewRow where
  articleNumber : Nat
  fields : List Bytes
  deriving DecidableEq

inductive DefectiveOverviewRowCode where
  | articleNumberInvalid
  | articleNumberOutOfRange
  | duplicateArticleNumber
  | fieldCountInvalid
  deriving DecidableEq

structure DefectiveOverviewRow where
  articleNumber : Option Nat
  wireLine : Bytes
  failureCode : DefectiveOverviewRowCode
  deriving DecidableEq

structure LosslessOverviewRows where
  rows : List LosslessOverviewRow
  defectiveRows : List DefectiveOverviewRow
  deriving DecidableEq

namespace Overview

def requiredHeaderFields : List Bytes :=
  ["Subject:", "From:", "Date:", "Message-ID:", "References:"].map Text.utf8

abbrev maxOverviewFields : Nat := 64

abbrev maxFieldDescriptorBytes : Nat := 256

def toAsciiLowercase (b : UInt8) : UInt8 := if 65 ≤ b ∧ b ≤ 90 then b + 32 else b

def eqIgnoreAsciiCase (a b : Bytes) : Bool :=
  a.map toAsciiLowercase = b.map toAsciiLowercase

/-- `strip_suffix(b"\r")`, or the line itself where it does not end so. -/
def stripCr (line : Bytes) : Bytes := if line.getLast? = some cr then line.dropLast else line

def wireLines (data : Bytes) : List Bytes :=
  ((data.splitOn lf).map stripCr).filter fun line => !line.isEmpty

def isAsciiDigit (b : UInt8) : Bool := 48 ≤ b ∧ b ≤ 57

def asciiDigitsValue (value : Bytes) : Nat :=
  value.foldl (fun n b => 10 * n + (b.toNat - 48)) 0

def parseAsciiU64 (value : Bytes) : Option Nat :=
  if value.isEmpty || !value.all isAsciiDigit then none
  else if asciiDigitsValue value < 2 ^ 64 then some (asciiDigitsValue value)
  else none

def checkDescriptor (index : Nat) (field : Bytes) : NntpResult Unit := do
  if field.isEmpty || field.length > maxFieldDescriptorBytes || !field.all (· < 128) then
    throw (.protocol "LIST OVERVIEW.FMT field descriptor is invalid")
  match requiredHeaderFields[index]? with
  | some required =>
      if !eqIgnoreAsciiCase field required then
        throw (.protocol "LIST OVERVIEW.FMT required field order is invalid")
  | none => pure ()

def checkDescriptors : Nat → List Bytes → NntpResult Unit
  | _, [] => pure ()
  | index, field :: fields => do
      checkDescriptor index field
      checkDescriptors (index + 1) fields

def metadataFieldsValid (fields : List Bytes) : Bool :=
  let is (index : Nat) (name : String) : Bool :=
    eqIgnoreAsciiCase (fields.getD index []) (Text.utf8 name)
  (is 5 ":bytes" && is 6 ":lines") || (is 5 "Bytes:" && is 6 "Lines:")

def parseOverviewFormat (data : Bytes) : NntpResult OverviewFormat := do
  let fields := wireLines data
  if fields.length < requiredHeaderFields.length + 2 ∨ fields.length > maxOverviewFields then
    throw (.protocol "LIST OVERVIEW.FMT field count is invalid")
  if !metadataFieldsValid fields then
    throw (.protocol "LIST OVERVIEW.FMT metadata fields are invalid")
  checkDescriptors 0 fields
  return { fields }

/-- The state of the row loop: what is accepted and defective so far, and the
article numbers seen. -/
structure RowScan where
  rows : List LosslessOverviewRow := []
  defectiveRows : List DefectiveOverviewRow := []
  seen : List Nat := []

def scanRow (format : OverviewFormat) (startArticle endArticle : Nat)
    (scan : RowScan) (line : Bytes) : RowScan :=
  let parts := line.splitOn 9
  let articleNumber := parseAsciiU64 (parts.headD [])
  let fields := parts.tail
  let defect (code : DefectiveOverviewRowCode) : RowScan :=
    { scan with
      defectiveRows := scan.defectiveRows ++
        [{ articleNumber, wireLine := line, failureCode := code }] }
  match articleNumber with
  | none => defect .articleNumberInvalid
  | some number =>
      if number < startArticle ∨ number > endArticle then defect .articleNumberOutOfRange
      else if fields.length ≠ format.fields.length then defect .fieldCountInvalid
      else if number ∈ scan.seen then defect .duplicateArticleNumber
      else
        { scan with
          rows := scan.rows ++ [{ articleNumber := number, fields }]
          seen := number :: scan.seen }

def parseLosslessOverviewRows (data : Bytes) (format : OverviewFormat)
    (startArticle endArticle : Nat) : LosslessOverviewRows :=
  let scan := (wireLines data).foldl (scanRow format startArticle endArticle) {}
  { rows := scan.rows, defectiveRows := scan.defectiveRows }

end Overview

end NzbNntp
