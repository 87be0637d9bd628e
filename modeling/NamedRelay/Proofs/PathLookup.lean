import NamedRelay.Proofs.Operation
import NamedRelay.Proofs.PathReading
import NamedRelay.Proofs.SlotTable

/-!
# Looking content up by path

An entry is found if its path, as text, begins the text looked for. The path may end anywhere in
the text, inside a component as well as at its end.
-/

namespace NamedRelay

namespace CachedContent

/-- The text is the path of the cached name with `tail` behind it. -/
def LeavesOf (e : CachedContent) (text : String) (tail : List Char) : Prop :=
  ∃ path, e.name.toPath = .ok path ∧ text.toList = path.toList ++ tail

/-- The text begins with the path of the cached name. -/
def Leads (e : CachedContent) (text : String) : Prop :=
  ∃ tail, e.LeavesOf text tail

lemma pathLeads_iff (text : String) (e : CachedContent) :
    ContentStore.pathLeads text e = true ↔ e.Leads text := by
  unfold ContentStore.pathLeads Leads LeavesOf
  rw [e.name.toPath_eq]
  dsimp only
  rw [List.isPrefixOf_iff_prefix]
  constructor
  · rintro ⟨tail, htail⟩
    exact ⟨tail, _, rfl, htail.symm⟩
  · rintro ⟨tail, path, hpath, htail⟩
    cases hpath
    exact ⟨tail, htail.symm⟩

end CachedContent

namespace ContentStore

/-- The entry is the first one whose path the text begins with. -/
structure Finds (s : ContentStore) (text : String) (before : List (Handle × CachedContent))
    (h : Handle) (e : CachedContent) (after : List (Handle × CachedContent)) : Prop where
  entries : s.entries.entries = before ++ (h, e) :: after
  leads : e.Leads text
  first : ∀ x ∈ before, ¬x.2.Leads text

lemma lookupPath?_eq_none_iff (s : ContentStore) (text : String) :
    s.lookupPath? text = none ↔ ∀ e ∈ s.entries.toList, ¬e.Leads text := by
  unfold lookupPath?
  rw [SlotTable.find?_eq_none]
  exact forall₂_congr fun e _ => by rw [← Bool.not_eq_true, CachedContent.pathLeads_iff]

lemma lookupPath?_eq_some_iff (s : ContentStore) (text : String) (h : Handle) :
    s.lookupPath? text = some h ↔ ∃ before e after, s.Finds text before h e after := by
  unfold lookupPath? SlotTable.find?
  constructor
  · intro hfound
    obtain ⟨⟨_, e⟩, hfirst, rfl⟩ := Option.map_eq_some_iff.mp hfound
    obtain ⟨hleads, before, after, hsplit, hbefore⟩ := List.find?_eq_some_iff_append.mp hfirst
    refine ⟨before, e, after, hsplit, (e.pathLeads_iff text).mp hleads, fun x hx => ?_⟩
    rw [← CachedContent.pathLeads_iff]
    simpa using hbefore x hx
  · rintro ⟨before, e, after, hsplit, hleads, hbefore⟩
    refine Option.map_eq_some_iff.mpr ⟨(h, e), List.find?_eq_some_iff_append.mpr ?_, rfl⟩
    refine ⟨(e.pathLeads_iff text).mpr hleads, before, after, hsplit, fun x hx => ?_⟩
    have hnot := hbefore x hx
    rw [← CachedContent.pathLeads_iff, Bool.not_eq_true] at hnot
    rw [hnot]
    rfl

end ContentStore

variable {σ κ : Type}

namespace Relay

lemma removeCached_of_none {r : Relay σ κ} {text : String}
    (hnone : r.store.lookupPath? text = none) :
    r.cachedAt? text = none ∧ r.removeCached text = (.error (.notFound .content), r) := by
  unfold cachedAt? removeCached
  rw [hnone]
  exact ⟨rfl, rfl⟩

/-- The entry found is the one that is shown, and the only one that removing takes out. -/
lemma removeCached_of_finds {r : Relay σ κ} (hslots : r.store.entries.slots.length ≤ UInt32.size)
    {text : String} {h : Handle} {before after : List (Handle × CachedContent)}
    {e : CachedContent} (hfinds : r.store.Finds text before h e after) :
    r.cachedAt? text = some e ∧ (r.removeCached text).1 = .ok () ∧
      (r.removeCached text).2.store.entries.toList =
        before.map Prod.snd ++ after.map Prod.snd := by
  have hfound := (r.store.lookupPath?_eq_some_iff text h).mpr ⟨before, e, after, hfinds⟩
  have hmem : (h, e) ∈ r.store.entries.entries := by simp [hfinds.entries]
  unfold cachedAt? removeCached
  rw [hfound]
  have hremoved := SlotTable.toList_remove_of_entries hslots hfinds.entries
  exact ⟨SlotTable.get?_of_mem_entries hslots hmem, rfl,
    (SlotTable.toList_compact _).trans hremoved⟩

end Relay

/-! ## Paths of plain names -/

/-- No byte of the name is written as an escape, and none is a slash. -/
def Name.IsPlain (n : Name) : Prop :=
  ∀ component ∈ n.components, ∀ byte ∈ component, needsEscape true byte = false

instance (n : Name) : Decidable n.IsPlain :=
  decidable_of_iff (n.components.all fun component => component.all (!needsEscape true ·)) (by
    simp [Name.IsPlain])

/-- The first piece is empty only where no byte is left or a separator comes next. -/
lemma exists_first_piece (separator : UInt8) (bytes : Bytes) :
    ∃ first others, splitAt separator bytes = first :: others ∧
      (first = [] ↔ bytes = [] ∨ bytes.head? = some separator) := by
  cases bytes with
  | nil => exact ⟨[], [], rfl, iff_of_true rfl (.inl rfl)⟩
  | cons byte bytes =>
    rw [splitAt_cons]
    by_cases hbyte : byte = separator
    · rw [if_pos hbyte]
      exact ⟨[], _, rfl, iff_of_true rfl (.inr (congrArg some hbyte))⟩
    · rw [if_neg hbyte]
      rcases splitAt separator bytes with _ | ⟨piece, pieces⟩
      · exact ⟨[byte], [], rfl, by simp [hbyte]⟩
      · exact ⟨byte :: piece, pieces, rfl, by simp [hbyte]⟩

lemma needsEscape_false_of_true : ∀ byte : UInt8, needsEscape true byte = false →
    needsEscape false byte = false := by
  decide +kernel

namespace Name

lemma IsPlain.escaped_eq {n : Name} (h : n.IsPlain) {component : Bytes}
    (hmem : component ∈ n.components) : escaped false component = component := by
  have hplain := h component hmem
  clear hmem
  induction component with
  | nil => rfl
  | cons byte component ih =>
    obtain ⟨hbyte, hrest⟩ := List.forall_mem_cons.mp hplain
    rw [escaped_cons, escapeByte_of_not_needsEscape (needsEscape_false_of_true byte hbyte),
      ih hrest]
    rfl

/-- The pieces of the path of a plain name are its components. -/
lemma IsPlain.splitAt_tail {n : Name} (h : n.IsPlain) (hsome : n.components ≠ []) :
    splitAt slash (n.pathBytes false).tail = n.components := by
  have hwritten : ∀ component ∈ n.components, slash ∉ escaped false component := by
    intro component hmem hslash
    rw [h.escaped_eq hmem] at hslash
    cases h component hmem slash hslash
  rw [pathBytes_eq, splitAt_tail_pathOf hwritten hsome]
  exact (List.map_congr_left fun component hmem => h.escaped_eq hmem).trans (List.map_id' _)

/-- If the path of a plain name begins with the path of another one, the components of the other
one are components of it, except that the last one may end too soon. -/
lemma IsPlain.splits {n other : Name} (hn : n.IsPlain) (hother : other.IsPlain) {tail : Bytes}
    (hpath : n.pathBytes false = other.pathBytes false ++ tail) (hsome : other.components ≠ []) :
    ∃ front last more rest, other.components = front ++ [last] ∧
      n.components = front ++ (last ++ more) :: rest ∧
      (more = [] ↔ tail = [] ∨ tail.head? = some slash) := by
  have hnsome : n.components ≠ [] := by
    intro hnil
    rw [pathBytes_eq, hnil, pathBytes_eq, pathOf_eq_slash_cons hsome] at hpath
    cases hpath
  obtain ⟨more, rest, htail, hmore⟩ := exists_first_piece slash tail
  obtain ⟨front, last, hlast⟩ := (List.eq_nil_or_concat other.components).resolve_left hsome
  rw [List.concat_eq_append] at hlast
  refine ⟨front, last, more, rest, hlast, ?_, hmore⟩
  -- The text is cut where the other path ends, so the pieces meet in the other's last component.
  have hnpath := congrArg List.tail hpath
  rw [pathBytes_eq other, pathOf_eq_slash_cons hsome, List.cons_append, List.tail_cons,
    ← pathBytes_eq other] at hnpath
  rw [← hn.splitAt_tail hnsome, hnpath]
  exact splitAt_append_of_pieces ((hother.splitAt_tail hsome).trans hlast) htail

/-- The last component of the name is only the beginning of the one in its place. -/
def BreaksOffIn (n longer : Name) : Prop :=
  ∃ front last more rest, more ≠ [] ∧ n.components = front ++ [last] ∧
    longer.components = front ++ (last ++ more) :: rest

/-- Among plain names, a path leads another one by whole components exactly if it ends there or a
slash comes next. Otherwise it breaks off inside a component. -/
lemma IsPlain.prefix_iff {n other : Name} (hn : n.IsPlain) (hother : other.IsPlain) {tail : Bytes}
    (hpath : n.pathBytes false = other.pathBytes false ++ tail) :
    (other.components <+: n.components ↔ tail = [] ∨ tail.head? = some slash) ∧
      (¬other.components <+: n.components → other.BreaksOffIn n) := by
  by_cases hsome : other.components = []
  · have hwhole : other.components <+: n.components := hsome ▸ List.nil_prefix
    refine ⟨iff_of_true hwhole ?_, fun hnot => absurd hwhole hnot⟩
    rw [pathBytes_eq other, hsome] at hpath
    obtain rfl : n.pathBytes false = tail := hpath
    rw [pathBytes_eq]
    cases n.components with
    | nil => exact .inl rfl
    | cons component components => exact .inr rfl
  · obtain ⟨front, last, more, rest, hlast, hcomponents, hmore⟩ := hn.splits hother hpath hsome
    have hwhole : other.components <+: n.components ↔ more = [] := by
      rw [hlast, hcomponents, List.prefix_append_right_inj, List.cons_prefix_cons,
        List.self_eq_append_right]
      exact and_iff_left List.nil_prefix
    refine ⟨hwhole.trans hmore, fun hnot => ?_⟩
    exact ⟨front, last, more, rest, mt hwhole.mpr hnot, hlast, hcomponents⟩

end Name

/-- What is left of a path behind another one, in bytes. -/
lemma CachedContent.LeavesOf.exists_bytes {n : Name} {e : CachedContent} {text : String}
    {tail : List Char} (h : e.LeavesOf text tail) (htext : n.toPath = .ok text) :
    ∃ rest, n.pathBytes false = e.name.pathBytes false ++ rest ∧ rest.map byteChar = tail := by
  obtain ⟨path, hpath, hsplit⟩ := h
  rw [Name.toPath_eq] at hpath htext
  cases hpath
  cases htext
  rw [String.toList_ofList, String.toList_ofList] at hsplit
  obtain ⟨front, rest, hbytes, hfront, hrest⟩ := List.map_eq_append_iff.mp hsplit
  rw [List.map_injective_iff.mpr byteChar_injective hfront] at hbytes
  exact ⟨rest, hbytes, hrest⟩

/-- The text ends, or goes on with a slash. -/
def AtBoundary (tail : List Char) : Prop :=
  tail = [] ∨ tail.head? = some '/'

lemma atBoundary_map_byteChar (rest : Bytes) :
    AtBoundary (rest.map byteChar) ↔ rest = [] ∨ rest.head? = some slash := by
  cases rest with
  | nil => exact iff_of_true (.inl rfl) (.inl rfl)
  | cons byte rest =>
    have hslash : byteChar byte = '/' ↔ byte = slash := byteChar_injective.eq_iff' (by decide)
    simp [AtBoundary, hslash]

/-- Looking content up by path. The entry found is the first one whose path begins the text,
wherever in the text that path ends, and none is found if there is no such entry. What is found is
what is shown, and the only one that removing takes out. The path of a plain name that is cached
always leads to an entry, its own or one before it. If that one has a plain name too, its
components lead the others exactly if its path ends at a boundary, and otherwise it breaks off
inside one of them. -/
theorem path_lookups_go_by_text :
    (∀ (s : ContentStore) (text : String),
      (s.lookupPath? text = none ↔ ∀ e ∈ s.entries.toList, ¬e.Leads text) ∧
        ∀ h, s.lookupPath? text = some h ↔ ∃ before e after, s.Finds text before h e after) ∧
    (∀ (r : Relay σ κ) (text : String),
      (r.store.lookupPath? text = none →
        r.cachedAt? text = none ∧ r.removeCached text = (.error (.notFound .content), r)) ∧
      ∀ before h e after, r.store.Finds text before h e after →
        r.store.entries.slots.length ≤ UInt32.size →
        r.cachedAt? text = some e ∧ (r.removeCached text).1 = .ok () ∧
          (r.removeCached text).2.store.entries.toList =
            before.map Prod.snd ++ after.map Prod.snd) ∧
    ∀ (r : Relay σ κ), ∀ own ∈ r.store.entries.toList, ∀ text, own.name.IsPlain →
      own.name.toPath = .ok text → r.store.entries.slots.length ≤ UInt32.size →
      ∃ before e after tail, r.store.entries.toList = before ++ e :: after ∧ own ∈ e :: after ∧
        (r.removeCached text).1 = .ok () ∧
        (r.removeCached text).2.store.entries.toList = before ++ after ∧
        e.LeavesOf text tail ∧
        (e.name.IsPlain →
          (e.name.components <+: own.name.components ↔ AtBoundary tail) ∧
            (¬AtBoundary tail → e.name.BreaksOffIn own.name)) := by
  refine ⟨fun s text => ⟨s.lookupPath?_eq_none_iff text, s.lookupPath?_eq_some_iff text⟩,
    fun r text => ⟨Relay.removeCached_of_none, fun before h e after hfinds hslots =>
      Relay.removeCached_of_finds hslots hfinds⟩, ?_⟩
  intro r own hown text hplain htext hslots
  have hself : own.Leads text := ⟨[], text, htext, (List.append_nil _).symm⟩
  cases hfound : r.store.lookupPath? text with
  | none => exact absurd hself ((r.store.lookupPath?_eq_none_iff text).mp hfound own hown)
  | some h =>
    obtain ⟨before, e, after, hfinds⟩ := (r.store.lookupPath?_eq_some_iff text h).mp hfound
    obtain ⟨-, hok, hremoved⟩ := Relay.removeCached_of_finds hslots hfinds
    obtain ⟨tail, hleaves⟩ := hfinds.leads
    have hlist : r.store.entries.toList = before.map Prod.snd ++ e :: after.map Prod.snd := by
      rw [← SlotTable.map_snd_entries, hfinds.entries, List.map_append, List.map_cons]
    refine ⟨_, e, _, tail, hlist, ?_, hok, hremoved, hleaves, fun hother => ?_⟩
    · rw [hlist, List.mem_append] at hown
      refine hown.resolve_left fun hearlier => ?_
      obtain ⟨x, hx, rfl⟩ := List.mem_map.mp hearlier
      exact hfinds.first x hx hself
    · obtain ⟨rest, hbytes, rfl⟩ := hleaves.exists_bytes htext
      rw [atBoundary_map_byteChar]
      obtain ⟨hwhole, hbreaks⟩ := hplain.prefix_iff hother hbytes
      exact ⟨hwhole, fun hinside => hbreaks (mt hwhole.mp hinside)⟩

namespace Sample

/-- Content of the name `xy`. -/
def longerContent : Packet :=
  { content 2 with
    name := ⟨.ccnb, [[120, 121]], none, by decide, by decide⟩
    suite_eq := rfl }

/-- The store has copies of `x` and of `xy`, in this order. -/
def overlapping : Relay Allowance CachePolicy :=
  Operation.runAll [.addToCache (content 1), .addToCache longerContent] peered

lemma reachable_overlapping : Reachable overlapping :=
  reachable_peered.runAll _

def copy : CachedContent :=
  { packet := content 1, lastUsed := ⟨0⟩ }

def longerCopy : CachedContent :=
  { packet := longerContent, lastUsed := ⟨0⟩ }

lemma toList_overlapping : overlapping.store.entries.toList = [copy, longerCopy] := by
  decide

end Sample

/-- Looking for the path of `xy` finds the copy of `x`, though `/x` ends inside the only component,
and removing takes that copy away. -/
theorem path_of_longer_name_removes_shorter_one :
    Reachable Sample.overlapping ∧ Sample.longerCopy.name.IsPlain ∧
      Sample.longerCopy.name.toPath = .ok "/xy" ∧ Sample.copy.name.toPath = .ok "/x" ∧
      Sample.overlapping.cachedAt? "/xy" = some Sample.copy ∧
      Sample.copy.LeavesOf "/xy" ['y'] ∧ ¬AtBoundary ['y'] ∧
      ¬Sample.copy.name.components <+: Sample.longerCopy.name.components ∧
      (Sample.overlapping.removeCached "/xy").2.store.entries.toList = [Sample.longerCopy] :=
  ⟨Sample.reachable_overlapping, by decide, by decide +kernel, by decide +kernel,
    by decide +kernel, ⟨"/x", by decide +kernel, by decide⟩, by simp [AtBoundary], by decide,
    by decide +kernel⟩

/-- The copy of `x` is the first whose path begins `/xy`, and its only component breaks off. -/
theorem shorter_name_breaks_off_in_longer_one :
    Sample.longerCopy ∈ Sample.overlapping.store.entries.toList ∧
      Sample.longerCopy.name.IsPlain ∧ Sample.longerCopy.name.toPath = .ok "/xy" ∧
      Sample.overlapping.store.entries.slots.length ≤ UInt32.size ∧
      (Sample.overlapping.removeCached "/xy").1 = .ok () ∧
      (Sample.overlapping.removeCached "/xy").2.store.entries.toList = [Sample.longerCopy] ∧
      Sample.copy.LeavesOf "/xy" ['y'] ∧
      Sample.copy.name.BreaksOffIn Sample.longerCopy.name := by
  have hmem : Sample.longerCopy ∈ Sample.overlapping.store.entries.toList := by decide
  have hplain : Sample.longerCopy.name.IsPlain := by decide
  have htext : Sample.longerCopy.name.toPath = .ok "/xy" := by decide +kernel
  have hslots : Sample.overlapping.store.entries.slots.length ≤ UInt32.size := by decide
  obtain ⟨before, e, after, tail, hlist, -, hok, hremoved, hleaves, hother⟩ :=
    path_lookups_go_by_text.2.2 Sample.overlapping Sample.longerCopy hmem "/xy" hplain htext hslots
  have hleft : (Sample.overlapping.removeCached "/xy").2.store.entries.toList =
      [Sample.longerCopy] := by decide +kernel
  refine ⟨hmem, hplain, htext, hslots, hok, hleft, ?_⟩
  rw [Sample.toList_overlapping] at hlist
  rw [hleft] at hremoved
  cases before with
  | nil =>
    obtain ⟨rfl, rfl⟩ := List.cons.inj hlist
    obtain ⟨path, hpath, hsplit⟩ := hleaves
    obtain rfl : "/x" = path := Except.ok.inj (Eq.trans (by decide +kernel) hpath)
    obtain rfl : ['y'] = tail := by simpa using hsplit
    refine ⟨⟨"/x", hpath, hsplit⟩, (hother (by decide)).2 (by simp [AtBoundary])⟩
  | cons first before =>
    obtain ⟨rfl, -⟩ := List.cons.inj hlist
    exact absurd (List.cons.inj hremoved).1 (by decide)

end NamedRelay
