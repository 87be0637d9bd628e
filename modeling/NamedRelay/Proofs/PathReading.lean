import Mathlib.Data.List.Induction
import NamedRelay.Proofs.Comparing
import NamedRelay.Proofs.PathText

/-!
# Reading names back

Writing escapes some bytes and leaves a `%` alone, and reading takes back every `%` with two
hexadecimal digits. So reading what was written gives the components as reading takes them, less an
empty last one: what comes back is the name, unless its last component is empty or some component
holds what looks like an escape.
-/

namespace NamedRelay

/-- A hexadecimal digit of either case. -/
def IsHexDigit (code : UInt8) : Prop :=
  48 ≤ code ∧ code ≤ 57 ∨ 65 ≤ code ∧ code ≤ 70 ∨ 97 ≤ code ∧ code ≤ 102

instance (code : UInt8) : Decidable (IsHexDigit code) :=
  inferInstanceAs (Decidable (_ ∨ _))

/-- The bytes begin with `%` and two hexadecimal digits. -/
def BeginsEscape (bytes : Bytes) : Prop :=
  ∃ high low, IsHexDigit high ∧ IsHexDigit low ∧ [percent, high, low] <+: bytes

/-- Somewhere in the bytes there is `%` with two hexadecimal digits behind it. -/
def HoldsEscape (bytes : Bytes) : Prop :=
  ∃ high low, IsHexDigit high ∧ IsHexDigit low ∧ [percent, high, low] <:+: bytes

lemma holdsEscape_cons_iff (byte : UInt8) (rest : Bytes) :
    HoldsEscape (byte :: rest) ↔ BeginsEscape (byte :: rest) ∨ HoldsEscape rest := by
  unfold HoldsEscape BeginsEscape
  simp only [List.infix_cons_iff, and_or_left, exists_or]

lemma not_holdsEscape_nil : ¬HoldsEscape [] := by
  rintro ⟨high, low, -, -, hinfix⟩
  cases List.infix_nil.mp hinfix

/-- The ways in which bytes are read: as nothing, as an escape, or as a byte that stands for
itself. -/
@[elab_as_elim]
lemma escape_induction {motive : Bytes → Prop} (nil : motive [])
    (escape : ∀ high low rest, IsHexDigit high → IsHexDigit low → motive rest →
      motive (percent :: high :: low :: rest))
    (literal : ∀ byte rest, ¬BeginsEscape (byte :: rest) → motive rest → motive (byte :: rest))
    (bytes : Bytes) : motive bytes := by
  induction hlength : bytes.length using Nat.strong_induction_on generalizing bytes with
  | _ length ih =>
    subst hlength
    cases bytes with
    | nil => exact nil
    | cons byte rest =>
      by_cases hbegins : BeginsEscape (byte :: rest)
      · obtain ⟨high, low, hhigh, hlow, after, hsplit⟩ := hbegins
        rw [← hsplit] at ih ⊢
        exact escape high low after hhigh hlow (ih after.length (by simp; omega) after rfl)
      · exact literal byte rest hbegins (ih rest.length (by simp) rest rfl)

/-! ## Escapes taken back -/

lemma isSome_hexValue?_iff : ∀ code : UInt8, (hexValue? code).isSome = true ↔ IsHexDigit code := by
  decide +kernel

lemma IsHexDigit.hexValue? {code : UInt8} (h : IsHexDigit code) :
    ∃ value, NamedRelay.hexValue? code = some value :=
  Option.isSome_iff_exists.mp ((isSome_hexValue?_iff code).mpr h)

lemma unescape_escape {high low x y : UInt8} (hhigh : hexValue? high = some x)
    (hlow : hexValue? low = some y) (rest : Bytes) :
    unescape (percent :: high :: low :: rest) = (x <<< 4 ||| y) :: unescape rest := by
  rw [unescape, if_pos rfl, hhigh, hlow]

lemma unescape_literal {byte : UInt8} {rest : Bytes} (h : ¬BeginsEscape (byte :: rest)) :
    unescape (byte :: rest) = byte :: unescape rest := by
  match rest with
  | [] => rfl
  | [_] => rfl
  | high :: low :: rest =>
    conv_lhs => rw [unescape]
    split
    · rename_i x y hx hy
      by_cases hpercent : byte = percent
      · subst hpercent
        rw [if_pos rfl] at hx
        refine absurd ⟨high, low, ?_, ?_, List.prefix_append [percent, high, low] rest⟩ h
        · exact (isSome_hexValue?_iff high).mp (by rw [hx]; rfl)
        · exact (isSome_hexValue?_iff low).mp (by rw [hy]; rfl)
      · rw [if_neg hpercent] at hx
        cases hx
    · rfl

lemma length_unescape_le (bytes : Bytes) : (unescape bytes).length ≤ bytes.length := by
  induction bytes using escape_induction with
  | nil => exact Nat.le_refl 0
  | escape high low rest hhigh hlow ih =>
    obtain ⟨x, hx⟩ := hhigh.hexValue?
    obtain ⟨y, hy⟩ := hlow.hexValue?
    rw [unescape_escape hx hy]
    simp only [List.length_cons]
    omega
  | literal byte rest hliteral ih =>
    rw [unescape_literal hliteral]
    exact Nat.succ_le_succ ih

/-- Bytes stand for themselves if there is nothing to take back. -/
lemma unescape_eq_self_iff (bytes : Bytes) : unescape bytes = bytes ↔ ¬HoldsEscape bytes := by
  induction bytes using escape_induction with
  | nil => exact iff_of_true rfl not_holdsEscape_nil
  | escape high low rest hhigh hlow ih =>
    obtain ⟨x, hx⟩ := hhigh.hexValue?
    obtain ⟨y, hy⟩ := hlow.hexValue?
    have hshorter := length_unescape_le rest
    have hholds : HoldsEscape (percent :: high :: low :: rest) :=
      ⟨high, low, hhigh, hlow, (List.prefix_append [percent, high, low] rest).isInfix⟩
    refine iff_of_false ?_ (not_not.mpr hholds)
    intro hsame
    -- Reading never makes bytes longer, and an escape makes them shorter.
    have hlength := congrArg List.length hsame
    rw [unescape_escape hx hy] at hlength
    simp only [List.length_cons] at hlength
    omega
  | literal byte rest hliteral ih =>
    rw [unescape_literal hliteral, List.cons_inj_right, ih, holdsEscape_cons_iff,
      or_iff_right hliteral]

/-! ## Escapes written -/

lemma hexValue?_high : ∀ byte : UInt8, hexValue? (hexCode (byte >>> 4)) = some (byte >>> 4) := by
  decide +kernel

lemma hexValue?_low : ∀ byte : UInt8, hexValue? (hexCode (byte &&& 15)) = some (byte &&& 15) := by
  decide +kernel

lemma or_halves : ∀ byte : UInt8, (byte >>> 4) <<< 4 ||| (byte &&& 15) = byte := by
  decide +kernel

lemma escapeByte_percent (escapeSeparator : Bool) :
    escapeByte escapeSeparator percent = [percent] := by
  cases escapeSeparator <;> rfl

lemma needsEscape_of_isHexDigit : ∀ (escapeSeparator : Bool) (code : UInt8), IsHexDigit code →
    needsEscape escapeSeparator code = false := by
  decide +kernel

lemma escapeByte_of_needsEscape {escapeSeparator : Bool} {byte : UInt8}
    (h : needsEscape escapeSeparator byte = true) :
    escapeByte escapeSeparator byte = [percent, hexCode (byte >>> 4), hexCode (byte &&& 15)] :=
  if_pos h

lemma escapeByte_of_not_needsEscape {escapeSeparator : Bool} {byte : UInt8}
    (h : needsEscape escapeSeparator byte = false) : escapeByte escapeSeparator byte = [byte] :=
  if_neg (Bool.eq_false_iff.mp h)

/-- A digit in front of what was written is a digit in front of what it was written from. -/
lemma cons_of_escaped {escapeSeparator : Bool} {bytes rest : Bytes} {digit : UInt8}
    (hdigit : IsHexDigit digit) (h : escaped escapeSeparator bytes = digit :: rest) :
    ∃ back, bytes = digit :: back ∧ escaped escapeSeparator back = rest := by
  cases bytes with
  | nil => cases h
  | cons byte back =>
    rw [escaped_cons] at h
    cases hneeds : needsEscape escapeSeparator byte with
    | true =>
      rw [escapeByte_of_needsEscape hneeds] at h
      obtain ⟨rfl, -⟩ := List.cons.inj h
      exact absurd hdigit (by decide)
    | false =>
      rw [escapeByte_of_not_needsEscape hneeds] at h
      obtain ⟨rfl, hrest⟩ := List.cons.inj h
      exact ⟨back, rfl, hrest⟩

/-- Writing makes no escape out of a byte that stands for itself and what is behind it. -/
lemma beginsEscape_of_escaped {escapeSeparator : Bool} {byte : UInt8} {rest : Bytes}
    (h : BeginsEscape (byte :: escaped escapeSeparator rest)) : BeginsEscape (byte :: rest) := by
  obtain ⟨high, low, hhigh, hlow, after, hsplit⟩ := h
  obtain ⟨rfl, hwritten⟩ := List.cons.inj hsplit
  obtain ⟨back, rfl, hback⟩ := cons_of_escaped hhigh hwritten.symm
  obtain ⟨back, rfl, -⟩ := cons_of_escaped hlow hback
  exact ⟨high, low, hhigh, hlow, List.prefix_append [percent, high, low] back⟩

/-- Reading a component that was written takes back the escapes of the component as well. -/
lemma unescape_escaped (escapeSeparator : Bool) (component : Bytes) :
    unescape (escaped escapeSeparator component) = unescape component := by
  induction component using escape_induction with
  | nil => rfl
  | escape high low rest hhigh hlow ih =>
    obtain ⟨x, hx⟩ := hhigh.hexValue?
    obtain ⟨y, hy⟩ := hlow.hexValue?
    have hwritten : escaped escapeSeparator (percent :: high :: low :: rest) =
        percent :: high :: low :: escaped escapeSeparator rest := by
      rw [escaped_cons, escaped_cons, escaped_cons, escapeByte_percent,
        escapeByte_of_not_needsEscape (needsEscape_of_isHexDigit _ high hhigh),
        escapeByte_of_not_needsEscape (needsEscape_of_isHexDigit _ low hlow)]
      rfl
    rw [hwritten, unescape_escape hx hy, unescape_escape hx hy, ih]
  | literal byte rest hliteral ih =>
    rw [escaped_cons, unescape_literal hliteral]
    cases hneeds : needsEscape escapeSeparator byte with
    | true =>
      rw [escapeByte_of_needsEscape hneeds]
      change unescape (percent :: hexCode (byte >>> 4) :: hexCode (byte &&& 15) ::
        escaped escapeSeparator rest) = _
      rw [unescape_escape (hexValue?_high byte) (hexValue?_low byte), or_halves, ih]
    | false =>
      -- The byte may be a `%`, and must not become an escape by what is written behind it.
      rw [escapeByte_of_not_needsEscape hneeds]
      change unescape (byte :: escaped escapeSeparator rest) = _
      rw [unescape_literal (mt beginsEscape_of_escaped hliteral), ih]

lemma map_unescape_map_escaped (escapeSeparator : Bool) (components : List Bytes) :
    (components.map (escaped escapeSeparator)).map unescape = components.map unescape := by
  rw [List.map_map]
  exact List.map_congr_left fun component _ => unescape_escaped escapeSeparator component

/-! ## The pieces of a path -/

lemma splitAt_cons (separator byte : UInt8) (bytes : Bytes) :
    splitAt separator (byte :: bytes) = if byte = separator then [] :: splitAt separator bytes
      else match splitAt separator bytes with
        | piece :: pieces => (byte :: piece) :: pieces
        | [] => [[byte]] := rfl

lemma splitAt_of_not_mem {separator : UInt8} {piece : Bytes} (h : separator ∉ piece) :
    splitAt separator piece = [piece] := by
  induction piece with
  | nil => rfl
  | cons byte piece ih =>
    rw [List.mem_cons, not_or] at h
    rw [splitAt_cons, if_neg (Ne.symm h.1), ih h.2]

lemma splitAt_ne_nil (separator : UInt8) (bytes : Bytes) : splitAt separator bytes ≠ [] := by
  induction bytes with
  | nil => exact List.cons_ne_nil _ _
  | cons byte bytes ih =>
    rw [splitAt_cons]
    split
    · exact List.cons_ne_nil _ _
    · split
      · exact List.cons_ne_nil _ _
      · exact List.cons_ne_nil _ _

/-- Where two parts meet, the last piece of the one and the first piece of the other are one. -/
lemma splitAt_append_of_pieces {separator : UInt8} {xs ys : Bytes} {front others : List Bytes}
    {last first : Bytes} (hxs : splitAt separator xs = front ++ [last])
    (hys : splitAt separator ys = first :: others) :
    splitAt separator (xs ++ ys) = front ++ (last ++ first) :: others := by
  induction xs generalizing front last with
  | nil =>
    cases front with
    | nil =>
      obtain ⟨rfl, -⟩ := List.cons.inj hxs
      exact hys
    | cons piece front => simp [splitAt] at hxs
  | cons byte xs ih =>
    rw [List.cons_append, splitAt_cons]
    rw [splitAt_cons] at hxs
    split at hxs
    · rename_i hbyte
      rw [if_pos hbyte]
      cases front with
      | nil => exact absurd (List.cons.inj hxs).2 (splitAt_ne_nil separator xs)
      | cons piece front =>
        obtain ⟨rfl, hrest⟩ := List.cons.inj hxs
        rw [ih hrest]
        rfl
    · rename_i hbyte
      rw [if_neg hbyte]
      rcases hpieces : splitAt separator xs with _ | ⟨piece, pieces⟩
      · exact absurd hpieces (splitAt_ne_nil separator xs)
      · rw [hpieces] at hxs
        dsimp only at hxs
        cases front with
        | nil =>
          obtain ⟨rfl, rfl⟩ := List.cons.inj hxs
          rw [@ih [] piece hpieces]
          rfl
        | cons next front =>
          obtain ⟨rfl, rfl⟩ := List.cons.inj hxs
          rw [@ih (piece :: front) last hpieces]
          rfl

lemma splitAt_append {separator : UInt8} {piece : Bytes} (h : separator ∉ piece) (rest : Bytes) :
    splitAt separator (piece ++ separator :: rest) = piece :: splitAt separator rest := by
  have hrest : splitAt separator (separator :: rest) = [] :: splitAt separator rest := by
    rw [splitAt_cons, if_pos rfl]
  have hpiece : splitAt separator piece = [] ++ [piece] := splitAt_of_not_mem h
  rw [splitAt_append_of_pieces hpiece hrest, List.append_nil, List.nil_append]

/-- Behind the first slash, a path is split into the components as they were written. -/
lemma splitAt_tail_pathOf {escapeSeparator : Bool} {components : List Bytes}
    (hwritten : ∀ component ∈ components, slash ∉ escaped escapeSeparator component)
    (hsome : components ≠ []) :
    splitAt slash (pathOf escapeSeparator components).tail =
      components.map (escaped escapeSeparator) := by
  induction components with
  | nil => exact absurd rfl hsome
  | cons component components ih =>
    have hfirst := hwritten component List.mem_cons_self
    rw [pathOf_cons, List.tail_cons]
    cases components with
    | nil =>
      rw [show pathOf escapeSeparator [] = [] from rfl, List.append_nil, splitAt_of_not_mem hfirst]
      rfl
    | cons next components =>
      have hrest := ih (fun other hother => hwritten other (List.mem_cons_of_mem _ hother))
        (List.cons_ne_nil _ _)
      rw [pathOf_cons, List.tail_cons] at hrest
      rw [pathOf_cons, splitAt_append hfirst, hrest]
      rfl

lemma slash_not_mem_escapeByte : ∀ byte : UInt8,
    (escapeByte true byte).contains slash = false := by
  decide +kernel

/-- With slashes escaped, a component is written without any. -/
lemma slash_not_mem_escaped (component : Bytes) : slash ∉ escaped true component := by
  intro hslash
  obtain ⟨byte, -, hbyte⟩ := List.mem_flatMap.mp hslash
  have hnot := slash_not_mem_escapeByte byte
  rw [List.contains_iff_mem.mpr hbyte] at hnot
  cases hnot

lemma splitAt_tail_pathOf_true {components : List Bytes} (hsome : components ≠ []) :
    splitAt slash (pathOf true components).tail = components.map (escaped true) :=
  splitAt_tail_pathOf (fun component _ => slash_not_mem_escaped component) hsome

lemma escaped_eq_nil_iff (escapeSeparator : Bool) (component : Bytes) :
    escaped escapeSeparator component = [] ↔ component = [] := by
  cases component with
  | nil => exact iff_of_true rfl rfl
  | cons byte component =>
    refine iff_of_false ?_ (List.cons_ne_nil _ _)
    rw [escaped_cons]
    cases hneeds : needsEscape escapeSeparator byte with
    | true =>
      rw [escapeByte_of_needsEscape hneeds]
      exact List.cons_ne_nil _ _
    | false =>
      rw [escapeByte_of_not_needsEscape hneeds]
      exact List.cons_ne_nil _ _

/-! ## Names made of components -/

namespace Name

lemma append_of_room (n : Name) (component : Bytes)
    (hcount : n.components.length < maxComponents)
    (hbytes : componentBytes n.components + component.length ≤ maxNameBytes) :
    ∃ longer, n.append component = .ok longer ∧ longer.suite = n.suite ∧
      longer.components = n.components ++ [component] := by
  unfold append
  rw [dif_pos hcount, dif_pos hbytes]
  exact ⟨_, rfl, rfl, rfl⟩

lemma foldlM_append_of_room {n : Name} {components : List Bytes}
    (hcount : n.components.length + components.length ≤ maxComponents)
    (hbytes : componentBytes n.components + componentBytes components ≤ maxNameBytes) :
    ∃ longer, components.foldlM append n = .ok longer ∧ longer.suite = n.suite ∧
      longer.components = n.components ++ components := by
  induction components generalizing n with
  | nil => exact ⟨n, rfl, rfl, (List.append_nil _).symm⟩
  | cons component components ih =>
    have hfirst : componentBytes (component :: components) =
        component.length + componentBytes components := by simp [componentBytes]
    rw [List.length_cons] at hcount
    rw [hfirst] at hbytes
    obtain ⟨longer, happended, hsuite, hcomponents⟩ :=
      n.append_of_room component (by omega) (by omega)
    have hlonger : componentBytes longer.components =
        componentBytes n.components + component.length := by
      rw [hcomponents, componentBytes_append_singleton]
    have hlength : longer.components.length = n.components.length + 1 := by
      rw [hcomponents, List.length_append, List.length_singleton]
    obtain ⟨last, hlast, hsuite', hcomponents'⟩ := @ih longer (by omega) (by omega)
    refine ⟨last, ?_, hsuite'.trans hsuite, ?_⟩
    · rw [List.foldlM_cons, happended]
      exact hlast
    · rw [hcomponents', hcomponents, List.append_assoc]
      rfl

/-- Components within the limits make a name. -/
lemma ofComponents_of_room {suite : Suite} {components : List Bytes}
    (hcount : components.length ≤ maxComponents)
    (hbytes : componentBytes components ≤ maxNameBytes) :
    ∃ n, ofComponents suite components = .ok n ∧ n.suite = suite ∧ n.components = components :=
  foldlM_append_of_room (n := root suite) (by simpa [root] using hcount)
    (by simpa [root, componentBytes] using hbytes)

end Name

lemma componentBytes_map_le {change : Bytes → Bytes}
    (hchange : ∀ component, (change component).length ≤ component.length)
    (components : List Bytes) :
    componentBytes (components.map change) ≤ componentBytes components := by
  induction components with
  | nil => exact Nat.le_refl 0
  | cons component components ih =>
    have hfirst := hchange component
    unfold componentBytes at ih ⊢
    simp only [List.map_cons, List.flatten_cons, List.length_append]
    omega

/-! ## Reading -/

/-- An empty component at the end is not read. -/
def withoutEmptyLast (components : List Bytes) : List Bytes :=
  if components.getLast? = some [] then components.dropLast else components

lemma withoutEmptyLast_sublist (components : List Bytes) :
    (withoutEmptyLast components).Sublist components := by
  unfold withoutEmptyLast
  split
  · exact List.dropLast_sublist components
  · exact List.Sublist.refl components

lemma withoutEmptyLast_eq_self_iff (components : List Bytes) :
    withoutEmptyLast components = components ↔ components.getLast? ≠ some [] := by
  unfold withoutEmptyLast
  split
  · rename_i hempty
    refine iff_of_false ?_ (not_not.mpr hempty)
    intro hsame
    have hlength := congrArg List.length hsame
    rw [List.length_dropLast] at hlength
    have hnil : components = [] := List.eq_nil_of_length_eq_zero (by omega)
    rw [hnil] at hempty
    cases hempty
  · rename_i hlast
    exact iff_of_true rfl hlast

lemma withoutEmptyLast_append_nil (front : List Bytes) :
    withoutEmptyLast (front ++ [[]]) = front := by
  unfold withoutEmptyLast
  rw [List.getLast?_concat, if_pos rfl, List.dropLast_concat]

namespace Name

/-- The slash in front does not count. -/
lemma ofPath_slash_cons (suite : Suite) (path : Bytes) :
    ofPath suite (slash :: path) =
      if path.isEmpty then .ok (root suite)
      else ofComponents suite
        ((splitAt slash (if path.getLast? = some slash then path.dropLast else path)).map
          unescape) := rfl

lemma ofPath_append_slash (suite : Suite) (path : Bytes) :
    ofPath suite (slash :: (path ++ [slash])) =
      ofComponents suite ((splitAt slash path).map unescape) := by
  have hsome : (path ++ [slash]).isEmpty = false := by simp
  rw [ofPath_slash_cons, hsome, if_neg Bool.false_ne_true, List.getLast?_concat, if_pos rfl,
    List.dropLast_concat]

lemma ofPath_of_last {suite : Suite} {path : Bytes} {last : UInt8}
    (hlast : (slash :: path).getLast? = some last) (hslash : last ≠ slash) :
    ofPath suite (slash :: path) = ofComponents suite ((splitAt slash path).map unescape) := by
  rcases List.eq_nil_or_concat path with rfl | ⟨front, byte, rfl⟩
  · exact absurd (Option.some.inj hlast).symm hslash
  · rw [List.concat_eq_append] at hlast ⊢
    have hsome : (front ++ [byte]).isEmpty = false := by simp
    rw [← List.cons_append, List.getLast?_concat] at hlast
    obtain rfl := Option.some.inj hlast
    rw [ofPath_slash_cons, hsome, if_neg Bool.false_ne_true, List.getLast?_concat,
      if_neg (mt Option.some.inj hslash)]

/-- What is read from a path whose components were written with their slashes escaped. -/
lemma ofPath_pathOf (suite : Suite) (components : List Bytes) :
    ofPath suite (pathOf true components) =
      ofComponents suite ((withoutEmptyLast components).map unescape) := by
  have hsplit : ∀ pieces : List Bytes, pieces ≠ [] →
      (splitAt slash (pathOf true pieces).tail).map unescape = pieces.map unescape := by
    intro pieces hsome
    rw [splitAt_tail_pathOf_true hsome, map_unescape_map_escaped]
  rcases List.eq_nil_or_concat components with rfl | ⟨front, last, rfl⟩
  · rfl
  · rw [List.concat_eq_append]
    by_cases hempty : last = []
    · subst hempty
      rw [withoutEmptyLast_append_nil, pathOf_append_singleton]
      cases front with
      | nil => rfl
      | cons component front =>
        have hsome := List.cons_ne_nil component front
        rw [pathOf_eq_slash_cons hsome, ← hsplit _ hsome]
        exact ofPath_append_slash suite _
    · have hsome : front ++ [last] ≠ [] := by simp
      obtain ⟨before, byte, hwritten⟩ :=
        (List.eq_nil_or_concat (escaped true last)).resolve_left
          (mt (escaped_eq_nil_iff true last).mp hempty)
      have hbyte : byte ≠ slash := by
        rintro rfl
        exact slash_not_mem_escaped last (by simp [hwritten])
      have hlast : (pathOf true (front ++ [last])).getLast? = some byte := by
        rw [pathOf_append_singleton, hwritten, List.concat_eq_append, ← List.cons_append,
          ← List.append_assoc, List.getLast?_concat]
      rw [pathOf_eq_slash_cons hsome] at hlast ⊢
      rw [ofPath_of_last hlast hbyte, hsplit _ hsome,
        (withoutEmptyLast_eq_self_iff _).mpr (by simpa using hempty)]

end Name

/-- What was written and read again is the same exactly if there was no empty last component to
leave out and nothing to take back. -/
lemma map_unescape_withoutEmptyLast_iff (components : List Bytes) :
    (withoutEmptyLast components).map unescape = components ↔
      (∀ last, components.getLast? = some last → last ≠ []) ∧
        ∀ component ∈ components, ¬HoldsEscape component := by
  have hlast : (∀ last, components.getLast? = some last → last ≠ []) ↔
      withoutEmptyLast components = components := by
    rw [withoutEmptyLast_eq_self_iff]
    exact ⟨fun h hempty => h [] hempty rfl, fun h last heq hnil => h (hnil ▸ heq)⟩
  rw [hlast]
  constructor
  · intro hsame
    have hwhole : withoutEmptyLast components = components := by
      refine (withoutEmptyLast_sublist components).eq_of_length ?_
      rw [← List.length_map unescape, hsame]
    rw [hwhole] at hsame
    refine ⟨hwhole, fun component hcomponent => ?_⟩
    have heach := List.map_inj_left.mp (hsame.trans (List.map_id' components).symm)
    exact (unescape_eq_self_iff component).mp (heach component hcomponent)
  · rintro ⟨hwhole, hplain⟩
    rw [hwhole]
    refine Eq.trans (List.map_congr_left fun component hcomponent => ?_) (List.map_id' components)
    exact (unescape_eq_self_iff component).mpr (hplain component hcomponent)

/-- Reading back what was written. A name that is written with its slashes escaped gives ASCII
text, of which a name of the same family is read. It has the components of the first one exactly if
that one has no empty last component and holds nothing that looks like an escape. -/
theorem written_names_read_back_iff (p : Name) {buffer : Array UInt8}
    (hroom : (p.pathBytes true).length ≤ buffer.size) :
    ∃ written text q, p.textIn buffer true = some written ∧ asciiText? written = some text ∧
      Name.ofUri p.suite text = .ok q ∧ q.suite = p.suite ∧
      (q.components = p.components ↔
        (∀ last, p.components.getLast? = some last → last ≠ []) ∧
          ∀ component ∈ p.components, ¬HoldsEscape component) := by
  have hread := withoutEmptyLast_sublist p.components
  have hcount : ((withoutEmptyLast p.components).map unescape).length ≤ maxComponents := by
    rw [List.length_map]
    exact hread.length_le.trans p.count_le
  have hbytes : componentBytes ((withoutEmptyLast p.components).map unescape) ≤ maxNameBytes :=
    (componentBytes_map_le length_unescape_le _).trans
      (hread.flatten.length_le.trans p.bytes_le)
  obtain ⟨q, hq, hsuite, hcomponents⟩ := @Name.ofComponents_of_room p.suite _ hcount hbytes
  refine ⟨p.pathBytes true, _, q, Name.textIn_of_room hroom,
    asciiText?_of_ascii (pathOf_ascii true p.components), ?_, hsuite, ?_⟩
  · unfold Name.ofUri
    rw [Name.pathBytes_eq, ofText_map_byteChar (pathOf_ascii true p.components),
      Name.ofPath_pathOf, hq]
  · rw [hcomponents]
    exact map_unescape_withoutEmptyLast_iff p.components

namespace Sample

/-- A name whose components hold a slash, a control byte and a lone `%`. -/
def escapedName : Name :=
  ⟨.ccnb, [[97, slash, 98], [1], [49, 48, 48, percent]], none, by decide, by decide⟩

end Sample

/-- The slash and the control byte are escaped, the `%` is not, and all three are read back. -/
theorem escaped_name_reads_back :
    (Sample.escapedName.pathBytes true).length ≤ (Array.replicate 64 (0 : UInt8)).size ∧
      ∃ q, Name.ofUri .ccnb "/a%2fb/%01/100%" = .ok q ∧
        q.components = Sample.escapedName.components := by
  have hroom : (Sample.escapedName.pathBytes true).length ≤
      (Array.replicate 64 (0 : UInt8)).size := by decide
  obtain ⟨written, text, q, hwritten, htext, hq, -, hback⟩ :=
    written_names_read_back_iff Sample.escapedName hroom
  obtain ⟨rfl, -⟩ := (Name.textIn_eq_some_iff written).mp hwritten
  obtain rfl : "/a%2fb/%01/100%" = text := Option.some.inj (Eq.trans (by decide +kernel) htext)
  refine ⟨hroom, q, hq, hback.mpr ⟨by decide, ?_⟩⟩
  have hreads : ∀ component ∈ Sample.escapedName.components, unescape component = component := by
    decide
  exact fun component hcomponent =>
    (unescape_eq_self_iff component).mp (hreads component hcomponent)

end NamedRelay
