import NamedRelay.Config.Basic
import NamedRelay.Document.Reader

/-!
# Configuration from documents

Records have known fields, each at most once; unknown fields are passed over. An address and a
nonce check are tagged: the field `family` or `mode` says which fields there are besides, and a
list with the tag first does as well. Integers must fit their type and are never text. Lists and
records that are read stand at most `maxDepth` deep in one another; with them counts all that a
tagged document holds, and nothing else that is passed over.
-/

namespace NamedRelay

namespace Document

/-- Puts each known field into its place. Refuses a second value for a place. -/
def place (size : Nat) (position : Document → Option (Option Nat)) :
    List (Document × Document) → Option (List (Option Document))
  | [] => some (List.replicate size none)
  | (name, value) :: rest => do
    let places ← place size position rest
    match ← position name with
    | none => return places
    | some index =>
      if (places[index]?).join.isSome then none else return places.set index (some value)

/-- The place of a field by its name. A name that is no scalar is refused. -/
def namedPosition (names : List String) : Document → Option (Option Nat)
  | .scalar s => some (names.idxOf? s.text)
  | _ => none

/-- The place of a field of a tagged record, by its name or by its number. -/
def taggedPosition (names : List String) : Document → Option (Option Nat)
  | .scalar s =>
    match s.atom with
    | .text name => some (names.idxOf? name)
    | .natural number => some (if number < names.length then some number else none)
    | _ => none
  | _ => none

/-- The items of a list in place of named fields; the last ones may be missing. -/
def placeItems (size : Nat) (items : List Document) : Option (List (Option Document)) :=
  if size < items.length then none
  else some (items.map some ++ List.replicate (size - items.length) none)

/-- The fields of a record. A blank is a record without fields, and `listed` admits a list of the
values. -/
def fields? (listed : Bool) (names : List String) : Document → Option (List (Option Document))
  | .record fields => place names.length (namedPosition names) fields
  | .list items => if listed then placeItems names.length items else none
  | document => if document.isBlank then some (List.replicate names.length none) else none

/-- A list; a blank is a list without items. -/
def items? : Document → Option (List Document)
  | .list items => some items
  | document => if document.isBlank then some [] else none

def bool? : Document → Option Bool
  | .scalar s =>
    match s.atom with
    | .bool value => some value
    | _ => none
  | _ => none

def natural? (limit : Nat) : Document → Option Nat
  | .scalar s =>
    match s.atom with
    | .natural value => if value < limit then some value else none
    | _ => none
  | _ => none

/-- As `natural?`, and zero may have a minus sign. -/
def taggedNatural? (limit : Nat) : Document → Option Nat
  | .scalar s =>
    match s.atom with
    | .natural value => if value < limit then some value else none
    | .negative 0 => some 0
    | _ => none
  | _ => none

def text? : Document → Option String
  | .scalar s =>
    match s.atom with
    | .text value => some value
    | _ => none
  | _ => none

mutual

/-- Holds no integer too large for any field. -/
def isPlausible : Document → Bool
  | .scalar s => s.atom != .oversized
  | .list items => arePlausible items
  | .record fields => arePlausibleFields fields

def arePlausible : List Document → Bool
  | [] => true
  | item :: rest => isPlausible item && arePlausible rest

def arePlausibleFields : List (Document × Document) → Bool
  | [] => true
  | (name, value) :: rest => isPlausible name && isPlausible value && arePlausibleFields rest

end

/-- What stands beside a tag: named fields or a list of values. -/
inductive Tagged where
  | fields (rest : List (Document × Document))
  | items (rest : List Document)

def isTag (tag : String) (field : Document × Document) : Bool :=
  field.1.text? == some tag

/-- How deep lists and records may stand in one another. -/
def maxDepth : Nat :=
  128

/-- Splits off the tag of a document that has `room` for lists and records in one another. -/
def tagged? (room : Nat) (tag : String) (document : Document) : Option (String × Tagged) :=
  if room < document.depth || !document.isPlausible then none
  else match document with
    | .record fields =>
      match fields.filter (isTag tag) with
      | [(_, .scalar s)] => some (s.text, .fields (fields.filter fun field => !isTag tag field))
      | _ => none
    | .list (.scalar s :: rest) => some (s.text, .items rest)
    | _ => none

def Tagged.values? (names : List String) : Tagged → Option (List Document)
  | .fields rest => do (← place names.length (taggedPosition names) rest).mapM id
  | .items rest => if rest.length = names.length then some rest else none

/-- Without fields of its own a tagged record may hold anything, but a list nothing more. -/
def Tagged.isUnit : Tagged → Bool
  | .fields _ => true
  | .items rest => rest.isEmpty

/-- The value of a field, or a default where it is missing. -/
def orDefault {α : Type} (field : Option Document) (decode : Document → Option α) (default : α) :
    Option α :=
  match field with
  | none => some default
  | some document => decode document

end Document

open Document

def macOf? (items : List Document) : Option (Vector UInt8 6) := do
  let bytes ← items.mapM fun item => (taggedNatural? 256 item).map UInt8.ofNat
  if h : bytes.length = 6 then some ⟨bytes.toArray, by simpa using h⟩ else none

def Address.ofDocument? (room : Nat) (document : Document) : Option Address := do
  match ← tagged? room "family" document with
  | ("inet", rest) =>
    match ← rest.values? ["addr"] with
    | [addr] => (SocketAddress.ofText? (← text? addr)).map .inet
    | _ => none
  | ("link", rest) =>
    match ← rest.values? ["mac", "ethertype"] with
    | [.list mac, ethertype] =>
      return .link (← macOf? mac) (UInt16.ofNat (← taggedNatural? UInt16.size ethertype))
    | _ => none
  | _ => none

def NonceCheck.ofDocument? (room : Nat) (document : Document) : Option NonceCheck := do
  match ← tagged? room "mode" document with
  | ("history", rest) =>
    match ← rest.values? ["capacity"] with
    | [capacity] => (taggedNatural? UInt64.size capacity).map .history
    | _ => none
  | ("pending_table", rest) => if rest.isUnit then some .pendingTable else none
  | _ => none

/-- Reads an interface's configuration, which takes one of the places in `room`. -/
def InterfaceConfig.ofDocument? (listed : Bool) (room : Nat) (document : Document) :
    Option InterfaceConfig := do
  match ← fields? listed ["address", "reflect", "forward_all"] document with
  | [some address, reflect, forwardAll] =>
    return { address := ← Address.ofDocument? (room - 1) address
             reflect := ← orDefault reflect bool? false
             forwardAll := ← orDefault forwardAll bool? false }
  | _ => none

namespace Config

def fieldNames : List String :=
  ["max_cache_entries", "content_timeout_ms", "face_timeout_ms", "interest_timeout_ms",
   "max_interest_retransmit", "nonce_check", "broadcast_fallback", "max_interfaces", "interfaces"]

/-- Reads a configuration. `listed` admits records given as lists of their values. -/
def ofDocument? (listed : Bool) (document : Document) : Option Config := do
  let base : Config := {}
  match ← fields? listed fieldNames document with
  | [cache, content, face, interest, retransmits, nonces, fallback, maxInterfaces, interfaces] =>
    let word (field : Option Document) (default : UInt64) : Option UInt64 :=
      orDefault field (fun d => (natural? UInt64.size d).map UInt64.ofNat) default
    return {
      maxCacheEntries := ← orDefault cache (natural? UInt64.size) base.maxCacheEntries
      contentTimeout := ← word content base.contentTimeout
      faceTimeout := ← word face base.faceTimeout
      interestTimeout := ← word interest base.interestTimeout
      maxRetransmits := ← orDefault retransmits
        (fun d => (natural? UInt32.size d).map UInt32.ofNat) base.maxRetransmits
      nonceCheck := ← orDefault nonces (NonceCheck.ofDocument? (maxDepth - 1)) base.nonceCheck
      broadcastFallback := ← orDefault fallback bool? base.broadcastFallback
      maxInterfaces := ← orDefault maxInterfaces (natural? UInt64.size) base.maxInterfaces
      interfaces := ← orDefault interfaces
        (fun d => do (← items? d).mapM (InterfaceConfig.ofDocument? listed (maxDepth - 2)))
        base.interfaces }
  | _ => none

def parse? (text : String) : Option Config :=
  (Document.ofText? text).bind (ofDocument? false)

/-- The configuration in a file's text, checked. There is no text if the file cannot be read. -/
def load (contents : Option String) : Except ConfigError Config :=
  match contents with
  | none => .error .unreadable
  | some text =>
    match parse? text with
    | none => .error .unparsable
    | some config =>
      match config.validate with
      | .ok () => .ok config
      | .error e => .error e

end Config

end NamedRelay
