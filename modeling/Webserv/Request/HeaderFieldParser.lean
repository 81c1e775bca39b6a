import Webserv.Request.HttpParser

/-!
# `HeaderFieldParser`
-/

namespace Webserv

open Text HttpParser

abbrev HeaderFieldMap := Std.ExtTreeMap Str Str

abbrev HeaderFieldPair := Str × Str

/-- A header map that passed `validateAllHeaderFields`. -/
structure HostHeaders where
  map : HeaderFieldMap
  hostValue : Str
  map_host : map[lit "host"]? = some hostValue
  host_ne_nil : hostValue ≠ []

namespace HeaderFieldParser

def parseFieldName (line : Str) (colonPos : Nat) : Except Exn Str := do
  let rawFieldName ← substr line (some 0) (some colonPos)
  return utility.toLower rawFieldName

def parseFieldValue (line : Str) (colonPos : Nat) : Except Exn Str := do
  let rawFieldValue ← substr line (some (colonPos + 1))
  utility.trimCopyIf rawFieldValue OWS

/-- `field_name[field_name.size() - 1]` is read after the test for an empty name. -/
def validateOneHeaderField (fieldName : Str) : Except Exn Unit := do
  if fieldName = [] then
    .error (.parseError HttpStatus.badRequest "header has no field name")
  if isOWS (fieldName.getLastD 0) then
    .error (.parseError HttpStatus.badRequest "header has space before colon")
  if !isHeaderToken fieldName then
    .error (.parseError HttpStatus.badRequest "field_name is not header token")

def parseHeaderField (line : Str) : Except Exn HeaderFieldPair :=
  match findFirst (· = 58) line (some 0) with
  | none => .error (.parseError HttpStatus.badRequest "header has no colon")
  | some colonPos => do
    let fieldName ← parseFieldName line colonPos
    let fieldValue ← parseFieldValue line colonPos
    validateOneHeaderField fieldName
    return (fieldName, fieldValue)

def handleSameFiledName (headerFieldPair : HeaderFieldPair) (headerFieldMap : HeaderFieldMap) :
    Except Exn HeaderFieldPair :=
  match headerFieldMap[headerFieldPair.1]? with
  | none => .ok headerFieldPair
  | some oldFieldValue =>
    if headerFieldPair.1 = lit "host" then
      .error (.parseError HttpStatus.badRequest "header has two Host")
    else .ok (headerFieldPair.1, oldFieldValue ++ lit "," ++ headerFieldPair.2)

def validateAllHeaderFields (headers : HeaderFieldMap) : Except Exn HostHeaders :=
  match h : headers[lit "host"]? with
  | none => .error (.parseError HttpStatus.badRequest "no host")
  | some host =>
    if hne : host = [] then .error (.parseError HttpStatus.badRequest "no host")
    else .ok ⟨headers, host, h, hne⟩

/-- One round of the loop of `parse`. -/
def addLine (headerFieldMap : HeaderFieldMap) (line : Str) : Except Exn HeaderFieldMap := do
  let headerFieldPair ← parseHeaderField line
  let headerFieldPair ← handleSameFiledName headerFieldPair headerFieldMap
  return headerFieldMap.insert headerFieldPair.1 headerFieldPair.2

def parse (headerFieldVec : List Str) : Except Exn HostHeaders := do
  let headerFieldMap ← headerFieldVec.foldlM addLine ∅
  validateAllHeaderFields headerFieldMap

end HeaderFieldParser

end Webserv
