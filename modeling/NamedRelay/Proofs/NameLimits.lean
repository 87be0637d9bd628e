import NamedRelay.Proofs.ChunkComponents
import NamedRelay.Proofs.PathReading

/-!
# Names within their limits

A name that is changed in place is a `Draft`, of which nothing promises that it keeps to the limits.
Each change is made as a whole or not at all, exactly as `Name` makes it, so a draft that began as a
name stays one, and its chunk number is that of the last component added for one.
-/

namespace NamedRelay

/-- At most 64 components of at most 2048 bytes altogether. -/
def WithinLimits (components : List Bytes) : Prop :=
  components.length ≤ 64 ∧ componentBytes components ≤ 2048

instance (components : List Bytes) : Decidable (WithinLimits components) :=
  inferInstanceAs (Decidable (_ ∧ _))

/-- The parts of a name while it is changed in place. -/
structure Draft where
  suite : Suite
  components : List Bytes
  chunk : Option UInt32
deriving DecidableEq

namespace Draft

/-- Adds a component. Where both limits stand against it, the number of components is what is
reported. -/
def append (d : Draft) (component : Bytes) : Except Error Unit × Draft :=
  if maxComponents ≤ d.components.length then
    (.error (.capacityExceeded .nameComponents maxComponents), d)
  else if maxNameBytes < componentBytes d.components + component.length then
    (.error (.capacityExceeded .nameBytes maxNameBytes), d)
  else (.ok (), { d with components := d.components ++ [component] })

/-- Adds the component of a chunk number, and notes the number afterwards. -/
def appendChunk (d : Draft) (number : UInt32) : Except Error Unit × Draft :=
  match Name.chunkComponent? d.suite number with
  | none => (.error (.unsupportedSuite d.suite), d)
  | some component =>
    match d.append component with
    | (.error e, d) => (.error e, d)
    | (.ok (), d) => (.ok (), { d with chunk := some number })

/-- An attempt to add a component and to set the chunk number. It succeeds exactly if it is allowed
and the limits are kept, it does both or neither, and nothing else changes. -/
structure Adds (d : Draft) (allowed : Prop) (component : Bytes) (chunk : Option UInt32)
    (outcome : Except Error Unit × Draft) : Prop where
  succeeds_iff : outcome.1 = .ok () ↔ allowed ∧ WithinLimits (d.components ++ [component])
  added : outcome.1 = .ok () →
    outcome.2 = { d with components := d.components ++ [component], chunk }
  kept : outcome.1 ≠ .ok () → outcome.2 = d

lemma withinLimits_append_iff (components : List Bytes) (component : Bytes) :
    WithinLimits (components ++ [component]) ↔
      components.length < maxComponents ∧
        componentBytes components + component.length ≤ maxNameBytes := by
  unfold WithinLimits
  rw [List.length_append, Name.componentBytes_append_singleton]
  rfl

lemma append_adds (d : Draft) (component : Bytes) :
    d.Adds True component d.chunk (d.append component) := by
  have hlimits := withinLimits_append_iff d.components component
  unfold append
  split
  · rename_i hcount
    have hover : ¬WithinLimits (d.components ++ [component]) := fun h => by
      have := (hlimits.mp h).1
      omega
    exact ⟨by simp [hover], by simp, fun _ => rfl⟩
  · split
    · rename_i hbytes
      have hover : ¬WithinLimits (d.components ++ [component]) := fun h => by
        have := (hlimits.mp h).2
        omega
      exact ⟨by simp [hover], by simp, fun _ => rfl⟩
    · rename_i hcount hbytes
      have hwithin : WithinLimits (d.components ++ [component]) :=
        hlimits.mpr ⟨Nat.lt_of_not_le hcount, Nat.le_of_not_lt hbytes⟩
      exact ⟨by simp [hwithin], fun _ => rfl, by simp⟩

lemma appendChunk_adds (d : Draft) (number : UInt32) :
    d.Adds (d.suite ≠ .ccnb) (chunkBytes d.suite number) (some number) (d.appendChunk number) := by
  have hadds := d.append_adds (chunkBytes d.suite number)
  unfold appendChunk
  rw [chunkComponent?_eq]
  by_cases hsuite : d.suite = .ccnb
  · rw [if_pos hsuite]
    exact ⟨by simp [hsuite], by simp, fun _ => rfl⟩
  · rw [if_neg hsuite]
    dsimp only
    rcases houtcome : d.append (chunkBytes d.suite number) with ⟨e | _, after⟩
    · rw [houtcome] at hadds
      have hover : ¬WithinLimits (d.components ++ [chunkBytes d.suite number]) := fun h =>
        absurd (hadds.succeeds_iff.mpr ⟨trivial, h⟩) (by simp)
      exact ⟨by simp [hover], by simp, fun _ => hadds.kept (by simp)⟩
    · rw [houtcome] at hadds
      have hwithin := (hadds.succeeds_iff.mp rfl).2
      obtain rfl : after = _ := hadds.added rfl
      exact ⟨by simp [hsuite, hwithin], fun _ => rfl, by simp⟩

end Draft

namespace Name

/-- The name as a draft. -/
def draft (n : Name) : Draft :=
  ⟨n.suite, n.components, n.chunk⟩

/-- What an attempt comes to where the name is changed in place. -/
def inPlace (n : Name) : Except Error Name → Except Error Unit × Draft
  | .ok changed => (.ok (), changed.draft)
  | .error e => (.error e, n.draft)

lemma draft_append (n : Name) (component : Bytes) :
    n.draft.append component = n.inPlace (n.append component) := by
  unfold Draft.append append draft
  by_cases hcount : n.components.length < maxComponents
  · rw [if_neg (Nat.not_le_of_lt hcount), dif_pos hcount]
    by_cases hbytes : componentBytes n.components + component.length ≤ maxNameBytes
    · rw [if_neg (Nat.not_lt_of_le hbytes), dif_pos hbytes]
      rfl
    · rw [if_pos (Nat.lt_of_not_le hbytes), dif_neg hbytes]
      rfl
  · rw [if_pos (Nat.le_of_not_lt hcount), dif_neg hcount]
    rfl

lemma draft_appendChunk (n : Name) (number : UInt32) :
    n.draft.appendChunk number = n.inPlace (n.appendChunk number) := by
  unfold Draft.appendChunk appendChunk
  change (match chunkComponent? n.suite number with | none => _ | some component => _) = _
  cases chunkComponent? n.suite number with
  | none => rfl
  | some component =>
    dsimp only
    rw [draft_append]
    cases n.append component <;> rfl

lemma withinLimits_draft (n : Name) : WithinLimits n.draft.components :=
  ⟨n.count_le, n.bytes_le⟩

lemma foldlM_append_eq_ok {n longer : Name} {components : List Bytes}
    (h : components.foldlM append n = .ok longer) : longer.chunk = n.chunk := by
  induction components generalizing n with
  | nil =>
    cases h
    rfl
  | cons component components ih =>
    rw [List.foldlM_cons] at h
    cases hnext : n.append component with
    | error e =>
      rw [hnext] at h
      cases h
    | ok next =>
      rw [hnext] at h
      rw [ih h, (append_eq_ok hnext).2]

/-- A name begins without a chunk number. -/
lemma chunk_of_ofComponents {suite : Suite} {components : List Bytes} {n : Name}
    (h : ofComponents suite components = .ok n) : n.chunk = none :=
  foldlM_append_eq_ok h

lemma chunk_of_ofUri {suite : Suite} {uri : String} {n : Name} (h : ofUri suite uri = .ok n) :
    n.chunk = none := by
  unfold ofUri ofPath at h
  extract_lets inner trimmed at h
  split at h
  · cases h
    rfl
  · exact chunk_of_ofComponents h

end Name

/-- What calls make of a name one after the other, and the chunk numbers that they have appended. A
name is read or put together, and then changed in place or, by value, into another one. -/
inductive Built : Draft → List UInt32 → Prop where
  | ofUri {suite : Suite} {uri : String} {n : Name} :
      Name.ofUri suite uri = .ok n → Built n.draft []
  | ofComponents {suite : Suite} {components : List Bytes} {n : Name} :
      Name.ofComponents suite components = .ok n → Built n.draft []
  | append {d : Draft} {numbers : List UInt32} (component : Bytes) :
      Built d numbers → Built (d.append component).2 numbers
  | appendChunk {d : Draft} {numbers : List UInt32} (number : UInt32) :
      Built d numbers → (d.appendChunk number).1 = .ok () →
      Built (d.appendChunk number).2 (numbers ++ [number])
  | refusedChunk {d : Draft} {numbers : List UInt32} (number : UInt32) :
      Built d numbers → (d.appendChunk number).1 ≠ .ok () →
      Built (d.appendChunk number).2 numbers
  | withChunk {n longer : Name} {numbers : List UInt32} {number : UInt32} :
      Built n.draft numbers → n.appendChunk number = .ok longer →
      Built longer.draft (numbers ++ [number])

namespace Name

/-- An attempt to change a name in place leaves a name. -/
lemma exists_inPlace (n : Name) (outcome : Except Error Name) :
    ∃ m : Name, m.draft = (n.inPlace outcome).2 := by
  cases outcome with
  | ok changed => exact ⟨changed, rfl⟩
  | error e => exact ⟨n, rfl⟩

lemma chunk_of_appendChunk {n longer : Name} {number : UInt32}
    (h : n.appendChunk number = .ok longer) : longer.draft.chunk = some number := by
  have hchanged := n.draft_appendChunk number
  rw [h] at hchanged
  have hadds := n.draft.appendChunk_adds number
  rw [hchanged] at hadds
  rw [show longer.draft = _ from hadds.added rfl]

end Name

lemma Built.exists_name {d : Draft} {numbers : List UInt32} (h : Built d numbers) :
    ∃ n : Name, n.draft = d := by
  induction h with
  | ofUri => exact ⟨_, rfl⟩
  | ofComponents => exact ⟨_, rfl⟩
  | append component _ ih =>
    obtain ⟨n, rfl⟩ := ih
    rw [n.draft_append]
    exact n.exists_inPlace _
  | appendChunk number _ _ ih =>
    obtain ⟨n, rfl⟩ := ih
    rw [n.draft_appendChunk]
    exact n.exists_inPlace _
  | refusedChunk number _ _ ih =>
    obtain ⟨n, rfl⟩ := ih
    rw [n.draft_appendChunk]
    exact n.exists_inPlace _
  | withChunk => exact ⟨_, rfl⟩

lemma Built.chunk_eq {d : Draft} {numbers : List UInt32} (h : Built d numbers) :
    d.chunk = numbers.getLast? := by
  induction h with
  | ofUri hread => exact Name.chunk_of_ofUri hread
  | ofComponents hmade => exact Name.chunk_of_ofComponents hmade
  | @append d numbers component _ ih =>
    have hadds := d.append_adds component
    by_cases hok : (d.append component).1 = .ok ()
    · rw [hadds.added hok, ih]
    · rw [hadds.kept hok, ih]
  | @appendChunk d numbers number _ hok _ =>
    rw [(d.appendChunk_adds number).added hok, List.getLast?_concat]
  | @refusedChunk d numbers number _ hfails ih =>
    rw [(d.appendChunk_adds number).kept hfails, ih]
  | withChunk _ hok _ =>
    -- A name made by value has the number that it was made with, whatever the other one had.
    rw [Name.chunk_of_appendChunk hok, List.getLast?_concat]

/-- Whatever calls have made of a name, it keeps both limits, and its chunk number is the last one
that was appended. A component, or the component of a chunk number in a family that has one, is
added exactly if the limits are kept, and otherwise the name stays as it is. So it is with names
that are changed in place and with those that are changed by value. The component of a chunk number
holds the shortest bytes that stand for it, behind a zero in one family, and from it the number is
read back. -/
theorem names_are_built_within_limits :
    (∀ d numbers, Built d numbers → WithinLimits d.components ∧ d.chunk = numbers.getLast?) ∧
    (∀ d : Draft, (∀ component, d.Adds True component d.chunk (d.append component)) ∧
      ∀ number, d.Adds (d.suite ≠ .ccnb) (chunkBytes d.suite number) (some number)
        (d.appendChunk number)) ∧
    (∀ n : Name,
      (∀ component, n.draft.append component = n.inPlace (n.append component)) ∧
      ∀ number, n.draft.appendChunk number = n.inPlace (n.appendChunk number)) ∧
    ∀ number, IsBigEndian number (Name.bigEndian number) ∧
      ∀ suite, bigEndianValue (chunkBytes suite number) = number.toNat ∧
        ∀ other, chunkBytes suite other = chunkBytes suite number → other = number := by
  refine ⟨?_, fun d => ⟨d.append_adds, d.appendChunk_adds⟩,
    fun n => ⟨n.draft_append, n.draft_appendChunk⟩, ?_⟩
  · intro d numbers h
    obtain ⟨n, hn⟩ := h.exists_name
    exact ⟨hn ▸ n.withinLimits_draft, h.chunk_eq⟩
  · intro number
    refine ⟨isBigEndian_bigEndian number, fun suite => ?_⟩
    exact ⟨bigEndianValue_chunkBytes suite number, fun other h => chunkBytes_injective suite h⟩

namespace Sample

/-- A name of 63 components. -/
def almostFull : Name :=
  ⟨.ndntlv, List.replicate 63 [], none, by decide, by decide⟩

/-- The chunk number has taken the last place. -/
def brimful : Draft :=
  (almostFull.draft.appendChunk 258).2

end Sample

/-- A name of 64 components has no room for another chunk number, and keeps the one it has. -/
theorem full_name_keeps_its_chunk_number :
    Built Sample.brimful [258] ∧ WithinLimits Sample.brimful.components ∧
      Sample.brimful.chunk = some 258 ∧
      Sample.brimful.components = List.replicate 63 [] ++ [[0, 1, 2]] ∧
      (Sample.brimful.appendChunk 7).1 =
        .error (.capacityExceeded .nameComponents maxComponents) ∧
      (Sample.brimful.appendChunk 7).2 = Sample.brimful := by
  have hmade : Name.ofComponents .ndntlv (List.replicate 63 []) = .ok Sample.almostFull := by
    decide +kernel
  have hfits : (Sample.almostFull.draft.appendChunk 258).1 = .ok () := by decide +kernel
  have hbuilt : Built Sample.brimful [258] := (Built.ofComponents hmade).appendChunk 258 hfits
  have hfull : (Sample.brimful.appendChunk 7).1 =
      .error (.capacityExceeded .nameComponents maxComponents) := by decide +kernel
  obtain ⟨hkeeps, hadds, -, -⟩ := names_are_built_within_limits
  obtain ⟨hlimits, hchunk⟩ := hkeeps Sample.brimful [258] hbuilt
  refine ⟨hbuilt, hlimits, hchunk, by decide +kernel, hfull, ?_⟩
  exact ((hadds Sample.brimful).2 7).kept (by simp [hfull])

end NamedRelay
