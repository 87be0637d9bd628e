import NamedRelay.Proofs.PathText

/-!
# One text for every name

A name is written to a buffer, given as text and shown. All three go by the same text: a slash in
front of each component, and each byte as itself or as `%` and two digits. A buffer that is too
small gets as much of the text as it has room for, and nothing is written outside of it.
-/

namespace NamedRelay

/-- A byte as text: itself if it is printable ASCII and not a slash that is to be escaped, and
otherwise `%` and its two hexadecimal digits. -/
def byteText (escapeSeparator : Bool) (byte : UInt8) : List Char :=
  if 32 ≤ byte.toNat ∧ byte.toNat < 127 ∧ ¬(escapeSeparator = true ∧ byte = slash) then
    [Char.ofNat byte.toNat]
  else ['%', Nat.digitChar (byte.toNat / 16), Nat.digitChar (byte.toNat % 16)]

/-- The text of a name: its components, each behind a slash. -/
def Name.pathText (n : Name) (escapeSeparator : Bool) : String :=
  String.ofList (n.components.flatMap fun component =>
    '/' :: component.flatMap (byteText escapeSeparator))

/-- What stands behind the path of a name that has this chunk number. -/
def chunkText (number : UInt32) : String :=
  " [chunk " ++ toString number.toNat ++ "]"

/-! ## Bytes -/

lemma map_byteChar_escapeByte : ∀ (escapeSeparator : Bool) (byte : UInt8),
    (escapeByte escapeSeparator byte).map byteChar = byteText escapeSeparator byte := by
  decide +kernel

lemma displayByte_eq : ∀ byte : UInt8, Name.displayByte byte = byteText false byte := by
  decide +kernel

lemma map_byteChar_escaped (escapeSeparator : Bool) (component : Bytes) :
    (escaped escapeSeparator component).map byteChar =
      component.flatMap (byteText escapeSeparator) := by
  unfold escaped
  rw [List.map_flatMap]
  simp only [map_byteChar_escapeByte]

lemma chunkText_injective : Function.Injective chunkText := by
  intro c d h
  have hdigits : Nat.toDigits 10 c.toNat = Nat.toDigits 10 d.toNat := by
    simpa [chunkText, Nat.repr_eq_ofList_toDigits, String.ofList_inj] using h
  have hvalue := congrArg (Nat.ofDigitChars 10 · 0) hdigits
  simp only [Nat.ofDigitChars_toDigits (b := 10) (by decide) (by decide)] at hvalue
  exact UInt32.toNat_inj.mp hvalue

lemma chunkText_ne_empty (c : UInt32) : chunkText c ≠ "" := by
  simp [chunkText]

/-! ## The text -/

namespace Name

variable (n : Name) (escapeSeparator : Bool)

lemma pathText_eq :
    n.pathText escapeSeparator = String.ofList ((n.pathBytes escapeSeparator).map byteChar) := by
  unfold pathText
  rw [pathBytes_eq, pathOf, List.map_flatMap]
  congr 1
  apply List.flatMap_congr
  intro component _
  rw [List.map_cons, map_byteChar_escaped]
  rfl

lemma ofText_pathText :
    Bytes.ofText (n.pathText escapeSeparator) = n.pathBytes escapeSeparator := by
  rw [pathText_eq, pathBytes_eq]
  exact ofText_map_byteChar (pathOf_ascii escapeSeparator n.components)

lemma display_eq : n.display = n.pathText false ++ n.chunk.elim "" chunkText := by
  have hpath : (fun component : Bytes => '/' :: component.flatMap displayByte) =
      fun component => '/' :: component.flatMap (byteText false) := by
    funext component
    rw [funext displayByte_eq]
  unfold display pathText
  rw [hpath]
  cases n.chunk <;> rfl

lemma display_eq_iff (c : UInt32) :
    n.display = n.pathText false ++ chunkText c ↔ n.chunk = some c := by
  rw [display_eq, String.append_right_inj]
  cases n.chunk with
  | none => exact iff_of_false (chunkText_ne_empty c).symm (by simp)
  | some d => exact (chunkText_injective.eq_iff).trans (by simp)

lemma display_eq_pathText_iff : n.display = n.pathText false ↔ n.chunk = none := by
  rw [display_eq]
  cases n.chunk with
  | none => simp
  | some c => simp [chunkText_ne_empty]

end Name

/-- The path of a name is written to a buffer exactly if there is room for all of its text. Then
its length is given, the text stands in front, and what is behind it in the buffer is as it was.
Otherwise the buffer holds the beginning of the text. A byte takes three characters at most, so the
path is always given as text, the same with slashes inside components left as they are. What is
shown for a name is this text, with the chunk number behind it exactly if the name has one. -/
theorem name_is_rendered_as_one_text (n : Name) :
    (∀ (buffer : Array UInt8) (escapeSeparator : Bool),
      let text := Bytes.ofText (n.pathText escapeSeparator)
      (n.writePath buffer escapeSeparator).1 =
          (if text.length ≤ buffer.size then .ok text.length
            else .error (.bufferTooSmall buffer.size)) ∧
        (n.writePath buffer escapeSeparator).2.size = buffer.size ∧
        (n.writePath buffer escapeSeparator).2.toList =
          text.take buffer.size ++ buffer.toList.drop text.length ∧
        text.length ≤ n.count + 3 * n.encodedLength) ∧
    n.toPath = .ok (n.pathText false) ∧
    (∀ number, n.display = n.pathText false ++ chunkText number ↔ n.chunk = some number) ∧
    (n.display = n.pathText false ↔ n.chunk = none) := by
  refine ⟨fun buffer escapeSeparator => ?_, ?_, n.display_eq_iff, n.display_eq_pathText_iff⟩
  · obtain ⟨written, heq, hwritten⟩ := n.writePath_eq buffer escapeSeparator
    have hlength := length_pathOf_le escapeSeparator n.components
    rw [n.ofText_pathText, heq]
    refine ⟨rfl, ?_, hwritten, ?_⟩
    · have hsize := congrArg List.length hwritten
      change written.size = buffer.size
      simp only [List.length_append, List.length_take, List.length_drop, Array.length_toList]
        at hsize
      omega
    · rw [Name.pathBytes_eq, Nat.add_comm]
      exact hlength
  · rw [n.toPath_eq, n.pathText_eq]

end NamedRelay
