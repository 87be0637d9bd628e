import NamedRelay.Suite

/-!
# Failures

Every operation that can fail says why in an `Error`. The wording is in `Error.message` alone.
-/

namespace NamedRelay

/-- What ran out. -/
inductive Resource where
  | nameComponents
  | nameBytes
  | packetBytes
  | interfaces
  | faceIds
  | contentStore
deriving DecidableEq, Repr

/-- What was looked for in vain. -/
inductive Subject where
  | interface
  | face
  | route
  | content
deriving DecidableEq, Repr

/-- What was wrong with a packet. -/
inductive Defect where
  | interestExpected
  | contentExpected
  | suiteMismatch (fields name : Suite)
  | notText
  | undecodable (reason : String)
deriving DecidableEq, Repr

inductive Error where
  | capacityExceeded (resource : Resource) (limit : Nat)
  | notFound (subject : Subject)
  | malformed (defect : Defect)
  | alreadyPresent (subject : Subject)
  | bufferTooSmall (capacity : Nat)
  | unsupportedSuite (suite : Suite)
deriving DecidableEq, Repr

def Resource.text : Resource → String
  | nameComponents => "name components"
  | nameBytes => "prefix bytes"
  | packetBytes => "packet bytes"
  | interfaces => "interfaces"
  | faceIds => "face ids"
  | contentStore => "content store"

def Subject.text : Subject → String
  | interface => "interface"
  | face => "face"
  | route => "fib entry"
  | content => "content"

def Defect.text : Defect → String
  | interestExpected => "expected an interest"
  | contentExpected => "expected content"
  | suiteMismatch fields name => fields.label ++ " fields on a " ++ name.label ++ " name"
  | notText => "path is not text"
  | undecodable reason => reason

def Error.message : Error → String
  | capacityExceeded resource limit =>
    resource.text ++ " capacity of " ++ toString limit ++ " exceeded"
  | notFound subject => subject.text ++ " not found"
  | malformed defect => "malformed input: " ++ defect.text
  | alreadyPresent subject => subject.text ++ " already present"
  | bufferTooSmall capacity => "buffer of " ++ toString capacity ++ " bytes too small"
  | unsupportedSuite suite => "operation not supported for suite " ++ suite.label

end NamedRelay
