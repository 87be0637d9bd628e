import Mathlib.Data.FinEnum
import Mathlib.Tactic.Common
import NamedRelay.Name.Path

/-!
# Names written as text

A path is written if the buffer has room for all of it. It then stands in front, and what is behind
it in the buffer is as it was. A byte takes three characters at most, so a buffer of the size that
`toPath` chooses always has room. All characters are ASCII, and as text they are one byte each.
-/

namespace NamedRelay

/-- A component as it is written. -/
def escaped (escapeSeparator : Bool) (component : Bytes) : Bytes :=
  component.flatMap (escapeByte escapeSeparator)

lemma escaped_cons (escapeSeparator : Bool) (byte : UInt8) (component : Bytes) :
    escaped escapeSeparator (byte :: component) =
      escapeByte escapeSeparator byte ++ escaped escapeSeparator component := rfl

lemma escaped_append (escapeSeparator : Bool) (front back : Bytes) :
    escaped escapeSeparator (front ++ back) =
      escaped escapeSeparator front ++ escaped escapeSeparator back :=
  List.flatMap_append

/-- Components as they are written, each behind a slash. -/
def pathOf (escapeSeparator : Bool) (components : List Bytes) : Bytes :=
  components.flatMap fun component => slash :: escaped escapeSeparator component

lemma pathOf_cons (escapeSeparator : Bool) (component : Bytes) (components : List Bytes) :
    pathOf escapeSeparator (component :: components) =
      slash :: (escaped escapeSeparator component ++ pathOf escapeSeparator components) := rfl

lemma pathOf_append_singleton (escapeSeparator : Bool) (front : List Bytes) (last : Bytes) :
    pathOf escapeSeparator (front ++ [last]) =
      pathOf escapeSeparator front ++ slash :: escaped escapeSeparator last := by
  simp [pathOf]

lemma pathOf_eq_slash_cons {escapeSeparator : Bool} {components : List Bytes}
    (hsome : components ≠ []) :
    pathOf escapeSeparator components = slash :: (pathOf escapeSeparator components).tail := by
  cases components with
  | nil => exact absurd rfl hsome
  | cons component components => rfl

lemma Name.pathBytes_eq (n : Name) (escapeSeparator : Bool) :
    n.pathBytes escapeSeparator = pathOf escapeSeparator n.components := rfl

/-! ## The length of a path -/

lemma length_escapeByte_le (escapeSeparator : Bool) (byte : UInt8) :
    (escapeByte escapeSeparator byte).length ≤ 3 := by
  unfold escapeByte
  split
  · exact Nat.le_refl 3
  · exact Nat.le_of_ble_eq_true rfl

lemma length_escaped_le (escapeSeparator : Bool) (component : Bytes) :
    (escaped escapeSeparator component).length ≤ 3 * component.length := by
  induction component with
  | nil => exact Nat.le_refl 0
  | cons byte component ih =>
    have hbyte := length_escapeByte_le escapeSeparator byte
    rw [escaped_cons, List.length_append, List.length_cons]
    omega

lemma length_pathOf_le (escapeSeparator : Bool) (components : List Bytes) :
    (pathOf escapeSeparator components).length ≤
      3 * componentBytes components + components.length := by
  induction components with
  | nil => exact Nat.zero_le _
  | cons component components ih =>
    have hcomponent := length_escaped_le escapeSeparator component
    have hbytes : componentBytes (component :: components) =
        component.length + componentBytes components := by simp [componentBytes]
    rw [pathOf_cons, List.length_cons, List.length_append, List.length_cons, hbytes]
    omega

/-! ## Filling a buffer -/

namespace BoundedWriter

/-- Bytes go in one behind the other as far as there is room, and the rest of the buffer stays. -/
lemma pushAll_eq {w : BoundedWriter} {done free : Bytes} (hbuffer : w.buffer.toList = done ++ free)
    (hlength : w.length = done.length) (bytes : Bytes) :
    ∃ buffer, w.pushAll bytes = (⟨buffer, (done ++ bytes.take free.length).length⟩,
        decide (bytes.length ≤ free.length)) ∧
      buffer.toList = done ++ bytes.take free.length ++ free.drop bytes.length := by
  induction bytes generalizing w done free with
  | nil => exact ⟨w.buffer, by simp [pushAll, ← hlength], by simpa using hbuffer⟩
  | cons byte bytes ih =>
    cases free with
    | nil =>
      have hfull : ¬w.length < w.buffer.size := by
        rw [← Array.length_toList, hbuffer, hlength]
        simp
      refine ⟨w.buffer, ?_, by simpa using hbuffer⟩
      rw [pushAll, push?, dif_neg hfull]
      simp [← hlength]
    | cons first free =>
      have hsize : w.length < w.buffer.size := by
        rw [← Array.length_toList, hbuffer, hlength]
        simp
      have hset : (w.buffer.set w.length byte hsize).toList = (done ++ [byte]) ++ free := by
        rw [Array.toList_set, hbuffer, hlength]
        simp
      obtain ⟨buffer, hpushed, hwritten⟩ :=
        ih (w := ⟨w.buffer.set w.length byte hsize, w.length + 1⟩) hset (by simp [hlength])
      refine ⟨buffer, ?_, ?_⟩
      · rw [pushAll, push?, dif_pos hsize]
        simpa using hpushed
      · simpa using hwritten

end BoundedWriter

namespace Name

variable {n : Name} {buffer : Array UInt8} {escapeSeparator : Bool}

/-- A path is written to the front of the buffer as far as there is room. -/
lemma writePath_eq (n : Name) (buffer : Array UInt8) (escapeSeparator : Bool) :
    ∃ written, n.writePath buffer escapeSeparator =
        (if (n.pathBytes escapeSeparator).length ≤ buffer.size then
          .ok (n.pathBytes escapeSeparator).length
        else .error (.bufferTooSmall buffer.size), written) ∧
      written.toList = (n.pathBytes escapeSeparator).take buffer.size ++
        buffer.toList.drop (n.pathBytes escapeSeparator).length := by
  have hbuffer : (BoundedWriter.ofBuffer buffer).buffer.toList = [] ++ buffer.toList := rfl
  obtain ⟨written, hpushed, hwritten⟩ :=
    BoundedWriter.pushAll_eq hbuffer rfl (n.pathBytes escapeSeparator)
  have hsize : buffer.toList.length = buffer.size := Array.length_toList
  rw [List.nil_append, hsize] at hpushed hwritten
  refine ⟨written, ?_, hwritten⟩
  unfold writePath
  rw [hpushed]
  by_cases hroom : (n.pathBytes escapeSeparator).length ≤ buffer.size
  · rw [decide_eq_true hroom, if_pos hroom, List.take_of_length_le hroom]
  · rw [decide_eq_false hroom, if_neg hroom]

lemma writePath_of_room (hroom : (n.pathBytes escapeSeparator).length ≤ buffer.size) :
    ∃ written, n.writePath buffer escapeSeparator =
        (.ok (n.pathBytes escapeSeparator).length, written) ∧
      written.toList = n.pathBytes escapeSeparator ++
        buffer.toList.drop (n.pathBytes escapeSeparator).length := by
  obtain ⟨written, hok, hwritten⟩ := n.writePath_eq buffer escapeSeparator
  rw [if_pos hroom] at hok
  rw [List.take_of_length_le hroom] at hwritten
  exact ⟨written, hok, hwritten⟩

lemma writePath_of_no_room (hroom : buffer.size < (n.pathBytes escapeSeparator).length) :
    (n.writePath buffer escapeSeparator).1 = .error (.bufferTooSmall buffer.size) := by
  obtain ⟨written, hfails, -⟩ := n.writePath_eq buffer escapeSeparator
  rw [hfails, if_neg (Nat.not_le_of_lt hroom)]

/-- The text that is written to the front of a buffer, if it finds room. -/
def textIn (n : Name) (buffer : Array UInt8) (escapeSeparator : Bool) : Option Bytes :=
  match n.writePath buffer escapeSeparator with
  | (.ok length, written) => some (written.toList.take length)
  | (.error _, _) => none

lemma textIn_of_room (hroom : (n.pathBytes escapeSeparator).length ≤ buffer.size) :
    n.textIn buffer escapeSeparator = some (n.pathBytes escapeSeparator) := by
  obtain ⟨written, hok, hwritten⟩ := writePath_of_room hroom
  unfold textIn
  rw [hok]
  dsimp only
  rw [hwritten, List.take_left]

lemma textIn_eq_some_iff (text : Bytes) : n.textIn buffer escapeSeparator = some text ↔
    n.pathBytes escapeSeparator = text ∧ text.length ≤ buffer.size := by
  by_cases hroom : (n.pathBytes escapeSeparator).length ≤ buffer.size
  · rw [textIn_of_room hroom, Option.some.injEq]
    constructor
    · rintro rfl
      exact ⟨rfl, hroom⟩
    · exact And.left
  · have hfull := writePath_of_no_room (Nat.lt_of_not_le hroom)
    unfold textIn
    rcases hwritten : n.writePath buffer escapeSeparator with ⟨_ | length, written⟩
    · refine iff_of_false nofun ?_
      rintro ⟨rfl, hfits⟩
      exact hroom hfits
    · rw [hwritten] at hfull
      cases hfull

end Name

/-! ## Text of one byte a character -/

/-- The character of an ASCII byte. -/
def byteChar (byte : UInt8) : Char :=
  Char.ofNat byte.toNat

lemma toNat_byteChar (byte : UInt8) : (byteChar byte).toNat = byte.toNat := by
  have hbyte := byte.toNat_lt
  have hvalid : byte.toNat.isValidChar := .inl (by omega)
  unfold byteChar Char.ofNat
  rw [dif_pos hvalid]
  rfl

lemma byteChar_injective : Function.Injective byteChar := by
  intro x y h
  apply UInt8.toNat_inj.mp
  rw [← toNat_byteChar x, h, toNat_byteChar y]

lemma utf8EncodeChar_byteChar {byte : UInt8} (h : byte < 0x80) :
    String.utf8EncodeChar (byteChar byte) = [byte] := by
  have hlt : byte.toNat < 128 := UInt8.lt_iff_toNat_lt.mp h
  have hval : (byteChar byte).val.toNat = byte.toNat := toNat_byteChar byte
  unfold String.utf8EncodeChar
  dsimp only
  rw [hval, if_pos (Nat.le_of_lt_succ hlt), UInt8.ofNat_toNat]

lemma ofText_map_byteChar {bytes : Bytes} (h : ∀ byte ∈ bytes, byte < 0x80) :
    Bytes.ofText (String.ofList (bytes.map byteChar)) = bytes := by
  unfold Bytes.ofText
  rw [String.toUTF8_eq_toByteArray, String.toByteArray_ofList]
  unfold List.utf8Encode
  rw [List.data_toByteArray, List.toList_toArray]
  induction bytes with
  | nil => rfl
  | cons byte bytes ih =>
    rw [List.map_cons, List.flatMap_cons, utf8EncodeChar_byteChar (h byte List.mem_cons_self),
      ih fun other hother => h other (List.mem_cons_of_mem _ hother)]
    rfl

lemma asciiText?_of_ascii {bytes : Bytes} (h : ∀ byte ∈ bytes, byte < 0x80) :
    asciiText? bytes = some (String.ofList (bytes.map byteChar)) := by
  unfold asciiText?
  rw [if_pos (List.all_eq_true.mpr fun byte hbyte => decide_eq_true (h byte hbyte))]
  rfl

lemma escapeByte_ascii : ∀ (escapeSeparator : Bool) (byte : UInt8),
    (escapeByte escapeSeparator byte).all (· < 0x80) = true := by
  decide +kernel

lemma pathOf_ascii (escapeSeparator : Bool) (components : List Bytes) :
    ∀ byte ∈ pathOf escapeSeparator components, byte < 0x80 := by
  intro byte hbyte
  obtain ⟨component, -, hcomponent⟩ := List.mem_flatMap.mp hbyte
  rcases List.mem_cons.mp hcomponent with rfl | hescaped
  · decide
  · obtain ⟨source, -, hsource⟩ := List.mem_flatMap.mp hescaped
    have hall := List.all_eq_true.mp (escapeByte_ascii escapeSeparator source)
    exact of_decide_eq_true (hall byte hsource)

namespace Name

/-- A name always has a path. -/
lemma toPath_eq (n : Name) :
    n.toPath = .ok (String.ofList ((n.pathBytes false).map byteChar)) := by
  have hroom : (n.pathBytes false).length ≤
      (Array.replicate (3 * n.encodedLength + n.count) (0 : UInt8)).size := by
    rw [Array.size_replicate]
    exact length_pathOf_le false n.components
  obtain ⟨written, hok, hwritten⟩ := writePath_of_room hroom
  unfold toPath
  dsimp only
  rw [hok]
  dsimp only
  rw [hwritten, List.take_left, pathBytes_eq,
    asciiText?_of_ascii (pathOf_ascii false n.components)]

end Name

end NamedRelay
