import NamedRelay.Proofs.PathReading

/-!
# Names written alike

A `%` is written as it stands, so a component that holds the escape of a byte is written like one
that holds the byte. Apart from such components the text tells the name.
-/

namespace NamedRelay

/-- Somewhere in the bytes there is what is written for a byte that is escaped. -/
def HoldsWrittenEscape (bytes : Bytes) : Prop :=
  ∃ byte, needsEscape true byte = true ∧ escapeByte true byte <:+: bytes

lemma HoldsWrittenEscape.cons {bytes : Bytes} (h : HoldsWrittenEscape bytes) (byte : UInt8) :
    HoldsWrittenEscape (byte :: bytes) := by
  obtain ⟨escapedByte, hneeds, hinfix⟩ := h
  exact ⟨escapedByte, hneeds, List.infix_cons hinfix⟩

lemma isHexDigit_hexCode_high (byte : UInt8) : IsHexDigit (hexCode (byte >>> 4)) :=
  (isSome_hexValue?_iff _).mp (by rw [hexValue?_high]; rfl)

lemma isHexDigit_hexCode_low (byte : UInt8) : IsHexDigit (hexCode (byte &&& 15)) :=
  (isSome_hexValue?_iff _).mp (by rw [hexValue?_low]; rfl)

/-- What is written for a byte is taken back in reading. -/
lemma HoldsWrittenEscape.holdsEscape {bytes : Bytes} (h : HoldsWrittenEscape bytes) :
    HoldsEscape bytes := by
  obtain ⟨byte, hneeds, hinfix⟩ := h
  rw [escapeByte_of_needsEscape hneeds] at hinfix
  exact ⟨_, _, isHexDigit_hexCode_high byte, isHexDigit_hexCode_low byte, hinfix⟩

/-! ## Components that are told apart -/

/-- An escape tells its byte. -/
lemma eq_of_escapes_eq {x y : UInt8} (hhigh : hexCode (x >>> 4) = hexCode (y >>> 4))
    (hlow : hexCode (x &&& 15) = hexCode (y &&& 15)) : x = y := by
  have h₁ : x >>> 4 = y >>> 4 := by
    apply Option.some.inj
    rw [← hexValue?_high x, hhigh, hexValue?_high y]
  have h₂ : x &&& 15 = y &&& 15 := by
    apply Option.some.inj
    rw [← hexValue?_low x, hlow, hexValue?_low y]
  rw [← or_halves x, h₁, h₂, or_halves y]

/-- Bytes that are written like an escaped byte, and do not begin with it, begin with its escape. -/
lemma holdsWrittenEscape_of_escaped {x y : UInt8} {rest back : Bytes}
    (hx : needsEscape true x = true) (hy : needsEscape true y = false)
    (h : escaped true (y :: rest) = escapeByte true x ++ back) :
    HoldsWrittenEscape (y :: rest) := by
  rw [escaped_cons, escapeByte_of_not_needsEscape hy, escapeByte_of_needsEscape hx] at h
  obtain ⟨rfl, hwritten⟩ := List.cons.inj h
  obtain ⟨rest, rfl, hback⟩ := cons_of_escaped (isHexDigit_hexCode_high x) hwritten
  obtain ⟨rest, rfl, -⟩ := cons_of_escaped (isHexDigit_hexCode_low x) hback
  refine ⟨x, hx, ?_⟩
  rw [escapeByte_of_needsEscape hx]
  exact (List.prefix_append [percent, _, _] rest).isInfix

/-- Components without written escapes are the same if they are written alike. -/
lemma eq_of_escaped_eq {a b : Bytes} (ha : ¬HoldsWrittenEscape a) (hb : ¬HoldsWrittenEscape b)
    (h : escaped true a = escaped true b) : a = b := by
  induction a generalizing b with
  | nil => exact ((escaped_eq_nil_iff true b).mp h.symm).symm
  | cons x a ih =>
    cases b with
    | nil => exact (escaped_eq_nil_iff true (x :: a)).mp h
    | cons y b =>
      have hrest := @ih b (mt (·.cons x) ha) (mt (·.cons y) hb)
      -- If one byte is escaped and the other is not, the other one is the `%` of a written escape.
      cases hx : needsEscape true x <;> cases hy : needsEscape true y
      · rw [escaped_cons, escaped_cons, escapeByte_of_not_needsEscape hx,
          escapeByte_of_not_needsEscape hy] at h
        obtain ⟨rfl, hback⟩ := List.cons.inj h
        rw [hrest hback]
      · exact absurd (holdsWrittenEscape_of_escaped hy hx h) ha
      · exact absurd (holdsWrittenEscape_of_escaped hx hy h.symm) hb
      · rw [escaped_cons, escaped_cons, escapeByte_of_needsEscape hx,
          escapeByte_of_needsEscape hy] at h
        simp only [List.cons_append, List.nil_append, List.cons.injEq, true_and] at h
        rw [eq_of_escapes_eq h.1 h.2.1, hrest h.2.2]

/-- A path tells how each component is written. -/
lemma map_escaped_eq_of_pathOf_eq {xs ys : List Bytes} (h : pathOf true xs = pathOf true ys) :
    xs.map (escaped true) = ys.map (escaped true) := by
  cases xs with
  | nil =>
    cases ys with
    | nil => rfl
    | cons y ys => cases h
  | cons x xs =>
    cases ys with
    | nil => cases h
    | cons y ys =>
      rw [← splitAt_tail_pathOf_true (List.cons_ne_nil x xs), h,
        splitAt_tail_pathOf_true (List.cons_ne_nil y ys)]

lemma eq_of_map_escaped_eq {xs ys : List Bytes}
    (hxs : ∀ component ∈ xs, ¬HoldsWrittenEscape component)
    (hys : ∀ component ∈ ys, ¬HoldsWrittenEscape component)
    (h : xs.map (escaped true) = ys.map (escaped true)) : xs = ys := by
  induction xs generalizing ys with
  | nil => exact (List.map_eq_nil_iff.mp h.symm).symm
  | cons x xs ih =>
    cases ys with
    | nil => cases h
    | cons y ys =>
      obtain ⟨hx, hxs⟩ := List.forall_mem_cons.mp hxs
      obtain ⟨hy, hys⟩ := List.forall_mem_cons.mp hys
      obtain ⟨hfirst, hrest⟩ := List.cons.inj h
      rw [eq_of_escaped_eq hx hy hfirst, ih hxs hys hrest]

/-! ## Components that are not -/

/-- An escape is written as it stands. -/
lemma escaped_escapeByte {byte : UInt8} (h : needsEscape true byte = true) :
    escaped true (escapeByte true byte) = escapeByte true byte := by
  have hhigh := needsEscape_of_isHexDigit true _ (isHexDigit_hexCode_high byte)
  have hlow := needsEscape_of_isHexDigit true _ (isHexDigit_hexCode_low byte)
  rw [escapeByte_of_needsEscape h, escaped_cons, escaped_cons, escaped_cons, escapeByte_percent,
    escapeByte_of_not_needsEscape hhigh, escapeByte_of_not_needsEscape hlow]
  rfl

/-- A byte in place of its written escape makes another component that is written alike. -/
lemma HoldsWrittenEscape.exists_shorter {component : Bytes} (h : HoldsWrittenEscape component) :
    ∃ shorter : Bytes, shorter.length < component.length ∧
      escaped true shorter = escaped true component := by
  obtain ⟨byte, hneeds, front, back, rfl⟩ := h
  refine ⟨front ++ [byte] ++ back, ?_, ?_⟩
  · rw [escapeByte_of_needsEscape hneeds]
    simp only [List.length_append, List.length_cons, List.length_nil]
    omega
  · have hsingle : escaped true [byte] = escapeByte true byte := List.append_nil _
    simp only [escaped_append, hsingle, escaped_escapeByte hneeds]

namespace Name

/-- A name with a written escape has another one beside it that is written alike. -/
lemma exists_other_pathBytes_eq {n : Name} {component : Bytes} (hmem : component ∈ n.components)
    (h : HoldsWrittenEscape component) :
    ∃ other : Name, other.suite = n.suite ∧ other.components ≠ n.components ∧
      other.pathBytes true = n.pathBytes true := by
  obtain ⟨shorter, hlength, hwritten⟩ := h.exists_shorter
  obtain ⟨front, back, hsplit⟩ := List.append_of_mem hmem
  have hcount := n.count_le
  have hbytes := n.bytes_le
  rw [hsplit] at hcount hbytes
  refine ⟨⟨n.suite, front ++ shorter :: back, n.chunk, ?_, ?_⟩, rfl, ?_, ?_⟩
  · simpa using hcount
  · simp only [componentBytes, List.flatten_append, List.flatten_cons, List.length_append] at *
    omega
  · rw [hsplit]
    intro hsame
    have hcomponent := (List.cons.inj (List.append_cancel_left hsame)).1
    rw [hcomponent] at hlength
    exact Nat.lt_irrefl _ hlength
  · rw [pathBytes_eq, pathBytes_eq, hsplit]
    simp [pathOf, hwritten]

end Name

namespace Sample

/-- A name of one slash. -/
def slashName : Name :=
  ⟨.ccnb, [[slash]], none, by decide, by decide⟩

/-- A name of the three characters that a slash is escaped by. -/
def escapeName : Name :=
  ⟨.ccnb, [[percent, 50, 102]], none, by decide, by decide⟩

/-- The escaped name with a chunk number, which in its family is not a component. -/
def numberedName : Name :=
  { escapedName with chunk := some 7 }

end Sample

/-- The text does not always tell the name. -/
theorem slash_and_its_escape_are_written_alike :
    ∃ p q : Name, ∃ buffer : Array UInt8, ∃ text, p.suite = q.suite ∧
      p.textIn buffer true = some text ∧ q.textIn buffer true = some text ∧
      p.components ≠ q.components :=
  ⟨Sample.slashName, Sample.escapeName, Array.replicate 64 0, [slash, percent, 50, 102], rfl,
    by decide, by decide, by decide⟩

/-- What a written name tells. Names of one text have the same components once all escapes are taken
back, and the same components as they stand if none of them holds the escape of a byte that is
written as one. A name that holds such an escape is written like another one of its family. -/
theorem text_denotes_one_name_without_written_escapes {p q : Name} {forP forQ : Array UInt8}
    {text : Bytes} (hp : p.textIn forP true = some text) (hq : q.textIn forQ true = some text) :
    p.components.map unescape = q.components.map unescape ∧
      ((∀ component ∈ p.components, ¬HoldsWrittenEscape component) →
        (∀ component ∈ q.components, ¬HoldsWrittenEscape component) →
        p.components = q.components) ∧
      ∀ component ∈ p.components, HoldsWrittenEscape component →
        ∃ other : Name, other.suite = p.suite ∧ other.components ≠ p.components ∧
          other.textIn forP true = some text := by
  obtain ⟨hptext, hroom⟩ := (Name.textIn_eq_some_iff text).mp hp
  obtain ⟨hqtext, -⟩ := (Name.textIn_eq_some_iff text).mp hq
  have hpieces : p.components.map (escaped true) = q.components.map (escaped true) :=
    map_escaped_eq_of_pathOf_eq (hptext.trans hqtext.symm)
  refine ⟨?_, fun hpfree hqfree => eq_of_map_escaped_eq hpfree hqfree hpieces, ?_⟩
  · rw [← map_unescape_map_escaped true, hpieces, map_unescape_map_escaped]
  · intro component hmem hholds
    obtain ⟨other, hsuite, hother, hsame⟩ := Name.exists_other_pathBytes_eq hmem hholds
    exact ⟨other, hsuite, hother,
      (Name.textIn_eq_some_iff text).mpr ⟨hsame.trans hptext, hroom⟩⟩

/-- A slash and its escape are written alike, and the name that holds the escape is the one that has
a double. Where no component holds one, names of one text have the same components. -/
theorem names_written_alike_read_alike :
    Sample.escapeName.textIn (Array.replicate 64 0) true = some [slash, percent, 50, 102] ∧
      Sample.slashName.textIn (Array.replicate 4 0) true = some [slash, percent, 50, 102] ∧
      Sample.escapeName.components.map unescape = Sample.slashName.components.map unescape ∧
      (∃ other : Name, other.suite = Sample.escapeName.suite ∧
        other.components ≠ Sample.escapeName.components ∧
        other.textIn (Array.replicate 64 0) true = some [slash, percent, 50, 102]) ∧
      Sample.escapedName.textIn (Array.replicate 64 0) true =
        some (Sample.escapedName.pathBytes true) ∧
      Sample.numberedName.textIn (Array.replicate 16 0) true =
        some (Sample.escapedName.pathBytes true) ∧
      Sample.escapedName.components = Sample.numberedName.components := by
  have hescape : Sample.escapeName.textIn (Array.replicate 64 0) true =
      some [slash, percent, 50, 102] := by decide
  have hslash : Sample.slashName.textIn (Array.replicate 4 0) true =
      some [slash, percent, 50, 102] := by decide
  have hplain : Sample.escapedName.textIn (Array.replicate 64 0) true =
      some (Sample.escapedName.pathBytes true) := Name.textIn_of_room (by decide)
  have hnumbered : Sample.numberedName.textIn (Array.replicate 16 0) true =
      some (Sample.numberedName.pathBytes true) := Name.textIn_of_room (by decide)
  have hfree : ∀ component ∈ Sample.escapedName.components, ¬HoldsWrittenEscape component := by
    have hreads : ∀ component ∈ Sample.escapedName.components,
        unescape component = component := by decide
    exact fun component hcomponent =>
      mt HoldsWrittenEscape.holdsEscape ((unescape_eq_self_iff component).mp
        (hreads component hcomponent))
  have halike := text_denotes_one_name_without_written_escapes hescape hslash
  have hholds : HoldsWrittenEscape [percent, 50, 102] := ⟨slash, rfl, List.infix_refl _⟩
  refine ⟨hescape, hslash, halike.1, halike.2.2 _ List.mem_cons_self hholds, hplain, hnumbered, ?_⟩
  exact (text_denotes_one_name_without_written_escapes hplain hnumbered).2.1 hfree hfree

end NamedRelay
