import Mathlib.Data.List.Induction
import NamedRelay.ContentStore.Policy
import NamedRelay.Proofs.SlotTable

/-!
# Adding to the content store

A strategy is free in what it answers; most of what holds of a store needs that it makes room by
removing entries and in no other way. Then adding leaves some of the old entries in their order,
and the new one, if it is let in, comes last and has the handle that was given out. Where the entry
unused for longest is looked for, it is the first of the oldest among those not pinned.
-/

namespace NamedRelay

/-- The strategy makes room by removing entries, and changes and adds none. -/
def CacheStrategy.OnlyRemoves (κ : Type) [CacheStrategy κ] : Prop :=
  ∀ (strategy : κ) (s : ContentStore) (incoming : Packet),
    (makeRoom strategy s incoming).2.1.toList.Sublist s.entries.toList

lemma SlotTable.toList_removeAll_sublist {α : Type} (t : SlotTable α) (handles : List Handle) :
    (handles.foldl (fun t h => (t.remove h).2) t).toList.Sublist t.toList := by
  induction handles generalizing t with
  | nil => exact List.Sublist.refl _
  | cons h handles ih => exact (ih (t.remove h).2).trans (t.toList_remove_sublist h)

lemma CachePolicy.onlyRemoves : CacheStrategy.OnlyRemoves CachePolicy :=
  fun _ s _ => s.entries.toList_removeAll_sublist _

namespace ContentStore

lemma get?_modify_self (s : ContentStore) (h : Handle) (change : CachedContent → CachedContent) :
    (s.modify h change).get? h = (s.get? h).map change :=
  s.entries.get?_modify_self h change

lemma toList_evictOldest_sublist (s : ContentStore) :
    s.evictOldest.entries.toList.Sublist s.entries.toList := by
  unfold evictOldest
  split
  · exact s.entries.toList_remove_sublist _
  · exact List.Sublist.refl _

/-! ## The entry unused for longest -/

lemma older_ne_none (best : Option (Handle × CachedContent)) (entry : Handle × CachedContent) :
    older best entry ≠ none := by
  unfold older
  split
  · nofun
  · split
    · nofun
    · nofun

lemma eq_nil_of_foldl_older {entries : List (Handle × CachedContent)}
    (h : entries.foldl older none = none) : entries = [] := by
  rcases List.eq_nil_or_concat entries with rfl | ⟨front, y, rfl⟩
  · rfl
  · rw [List.concat_eq_append, List.foldl_append] at h
    exact absurd h (older_ne_none _ y)

/-- The fold stops at an entry that is older than all before it, while none behind it is older. -/
lemma split_of_foldl_older {entries : List (Handle × CachedContent)} {x : Handle × CachedContent}
    (h : entries.foldl older none = some x) :
    ∃ before after, entries = before ++ x :: after ∧
      (∀ y ∈ before, x.2.lastUsed.ms < y.2.lastUsed.ms) ∧
      ∀ y ∈ after, x.2.lastUsed.ms ≤ y.2.lastUsed.ms := by
  induction entries using List.reverseRecOn generalizing x with
  | nil => cases h
  | append_singleton entries y ih =>
    rw [List.foldl_append, List.foldl_cons, List.foldl_nil] at h
    cases hbest : entries.foldl older none with
    | none =>
      rw [hbest] at h
      cases h
      rw [eq_nil_of_foldl_older hbest]
      exact ⟨[], [], rfl, List.forall_mem_nil _, List.forall_mem_nil _⟩
    | some best =>
      obtain ⟨before, after, hsplit, hbefore, hafter⟩ := ih hbest
      rw [hbest] at h
      change (if y.2.lastUsed.ms < best.2.lastUsed.ms then some y else some best) = some x at h
      split at h
      · rename_i holder
        cases h
        refine ⟨entries, [], rfl, ?_, List.forall_mem_nil _⟩
        intro z hz
        rw [hsplit, List.mem_append, List.mem_cons] at hz
        rcases hz with hz | rfl | hz
        · exact UInt64.lt_trans holder (hbefore z hz)
        · exact holder
        · exact UInt64.lt_of_lt_of_le holder (hafter z hz)
      · rename_i hyounger
        cases h
        refine ⟨before, after ++ [y], by rw [hsplit, List.append_assoc, List.cons_append], hbefore,
          ?_⟩
        intro z hz
        rcases List.mem_append.mp hz with hz | hz
        · exact hafter z hz
        · rw [List.mem_singleton.mp hz]
          exact UInt64.not_lt.mp hyounger

/-- What is found among some of the items is found among all of them. -/
lemma split_of_filter {α : Type} {p : α → Bool} {items front back : List α} {x : α}
    (h : items.filter p = front ++ x :: back) :
    ∃ before after, items = before ++ x :: after ∧ p x = true ∧ before.filter p = front ∧
      after.filter p = back := by
  obtain ⟨start, rest, rfl, hstart, hrest⟩ := List.filter_eq_append_iff.mp h
  obtain ⟨skipped, after, rfl, hskipped, hx, hafter⟩ := List.filter_eq_cons_iff.mp hrest
  refine ⟨start ++ skipped, after, (List.append_assoc start skipped _).symm, hx, ?_, hafter⟩
  rw [List.filter_append, hstart, List.filter_eq_nil_iff.mpr hskipped, List.append_nil]

/-- The entry that is evicted by default is not pinned. It was unused for longer than all those
before it that are not pinned, and for at least as long as those behind it. -/
lemma split_of_oldestEvictable {s : ContentStore} {h : Handle}
    (holdest : s.oldestEvictable? = some h) :
    ∃ victim before after, s.entries.entries = before ++ (h, victim) :: after ∧
      victim.flags.isStatic = false ∧
      (∀ x ∈ before, x.2.flags.isStatic = false → victim.lastUsed.ms < x.2.lastUsed.ms) ∧
      ∀ x ∈ after, x.2.flags.isStatic = false → victim.lastUsed.ms ≤ x.2.lastUsed.ms := by
  obtain ⟨⟨_, victim⟩, hfound, rfl⟩ := Option.map_eq_some_iff.mp holdest
  obtain ⟨front, back, hfree, hfront, hback⟩ := split_of_foldl_older hfound
  obtain ⟨before, after, hsplit, hvictim, rfl, rfl⟩ := split_of_filter hfree
  refine ⟨victim, before, after, hsplit, by simpa using hvictim, ?_, ?_⟩
  · intro x hx hunpinned
    exact hfront x (List.mem_filter.mpr ⟨hx, by simp [hunpinned]⟩)
  · intro x hx hunpinned
    exact hback x (List.mem_filter.mpr ⟨hx, by simp [hunpinned]⟩)

/-- Nothing can be evicted only where all entries are pinned. -/
lemma isStatic_of_oldestEvictable_eq_none {s : ContentStore} (hnone : s.oldestEvictable? = none) :
    ∀ e ∈ s.entries.toList, e.flags.isStatic = true := by
  intro e he
  rw [← SlotTable.map_snd_entries] at he
  obtain ⟨x, hx, rfl⟩ := List.mem_map.mp he
  have hempty := eq_nil_of_foldl_older (Option.map_eq_none_iff.mp hnone)
  simpa using List.filter_eq_nil_iff.mp hempty x hx

variable {κ : Type} [CacheStrategy κ]

lemma toList_askForRoom_sublist (hκ : CacheStrategy.OnlyRemoves κ) (s : ContentStore)
    (strategy : Option κ) (incoming : Packet) :
    (s.askForRoom strategy incoming).2.1.entries.toList.Sublist s.entries.toList := by
  unfold askForRoom
  split
  · exact List.Sublist.refl _
  · rename_i k
    exact hκ k s incoming

/-- The store after room was made, whether there is room then or not. -/
def cleared (s : ContentStore) (strategy : Option κ) (incoming : Packet) : ContentStore :=
  (if (s.askForRoom strategy incoming).1 then (s.askForRoom strategy incoming).2.1
    else (s.askForRoom strategy incoming).2.1.evictOldest).compact

lemma toList_cleared_sublist (hκ : CacheStrategy.OnlyRemoves κ) (s : ContentStore)
    (strategy : Option κ) (incoming : Packet) :
    (s.cleared strategy incoming).entries.toList.Sublist s.entries.toList := by
  have hasked := s.toList_askForRoom_sublist hκ strategy incoming
  unfold cleared compact
  dsimp only
  rw [SlotTable.toList_compact]
  split
  · exact hasked
  · exact (toList_evictOldest_sublist _).trans hasked

lemma packed_cleared (s : ContentStore) (strategy : Option κ) (incoming : Packet) :
    (s.cleared strategy incoming).entries.Packed :=
  SlotTable.packed_compact _

/-- The entry is put in after some of the old ones. -/
structure Stored (s : ContentStore) (entry : CachedContent) (added : Addition κ) : Prop where
  entries : ∃ kept, kept.Sublist s.entries.toList ∧
    added.store.entries.toList = kept ++ [entry]
  handle : s.entries.slots.length < UInt32.size →
    ∃ h, added.result = .ok h ∧ added.store.get? h = some entry
  packed : s.entries.Packed → added.store.entries.Packed

omit [CacheStrategy κ] in
lemma Stored.mem {s : ContentStore} {entry c : CachedContent} {added : Addition κ}
    (h : s.Stored entry added) (hc : c ∈ added.store.entries.toList) :
    c ∈ s.entries.toList ∨ c = entry := by
  obtain ⟨kept, hkept, hentries⟩ := h.entries
  rw [hentries, List.mem_append, List.mem_singleton] at hc
  rcases hc with hold | hnew
  · exact .inl (hkept.subset hold)
  · exact .inr hnew

/-- The entry is not let in, and some of the old ones may be gone. -/
structure Refused (s : ContentStore) (added : Addition κ) : Prop where
  error : ∃ e, added.result = .error e
  entries : added.store.entries.toList.Sublist s.entries.toList
  packed : s.entries.Packed → added.store.entries.Packed

omit [CacheStrategy κ] in
lemma stored_insert {s rest : ContentStore}
    (hrest : rest.entries.toList.Sublist s.entries.toList)
    (hslots : rest.entries.slots.length ≤ s.entries.slots.length)
    (hpacked : s.entries.Packed → rest.entries.Packed)
    (entry : CachedContent) (strategy : Option κ) (events : List Event) :
    s.Stored entry (⟨.ok (rest.insert entry).1, (rest.insert entry).2, strategy, events⟩ :
      Addition κ) where
  entries := ⟨rest.entries.toList, hrest, rest.entries.toList_insert entry⟩
  handle hroom := ⟨_, rfl, SlotTable.get?_insert_self (Nat.lt_of_le_of_lt hslots hroom) entry⟩
  packed hs := (hpacked hs).insert entry

/-- How an addition can end. -/
inductive Adds (s : ContentStore) (entry : CachedContent) (strategy : Option κ) :
    Addition κ → Prop where
  | present {h : Handle} : s.findExact? entry.name = some h →
      s.Adds entry strategy ⟨.error (.alreadyPresent .content), s, strategy, []⟩
  | roomy : s.findExact? entry.name = none → s.isFull = false →
      s.Adds entry strategy ⟨.ok (s.insert entry).1, (s.insert entry).2, strategy, []⟩
  | crowded : s.findExact? entry.name = none → s.isFull = true →
      (s.cleared strategy entry.packet).isFull = true →
      s.Adds entry strategy ⟨.error (.capacityExceeded .contentStore s.capacity),
        s.cleared strategy entry.packet, (s.askForRoom strategy entry.packet).2.2.1,
        (s.askForRoom strategy entry.packet).2.2.2⟩
  | cleared : s.findExact? entry.name = none → s.isFull = true →
      (s.cleared strategy entry.packet).isFull = false →
      s.Adds entry strategy ⟨.ok ((s.cleared strategy entry.packet).insert entry).1,
        ((s.cleared strategy entry.packet).insert entry).2,
        (s.askForRoom strategy entry.packet).2.2.1, (s.askForRoom strategy entry.packet).2.2.2⟩

lemma adds (s : ContentStore) (entry : CachedContent) (strategy : Option κ) :
    s.Adds entry strategy (s.add entry strategy) := by
  cases hnew : s.findExact? entry.name with
  | some h =>
    unfold add
    rw [hnew]
    exact .present hnew
  | none =>
    cases hfull : s.isFull with
    | false =>
      unfold add
      rw [hnew, hfull]
      exact .roomy hnew hfull
    | true =>
      unfold add
      rw [hnew, hfull]
      change s.Adds entry strategy (if (s.cleared strategy entry.packet).isFull then _ else _)
      split
      · rename_i hcrowded
        exact .crowded hnew hfull hcrowded
      · rename_i hroom
        exact .cleared hnew hfull (Bool.eq_false_iff.mpr hroom)

/-- Nothing happens in an addition but that room is asked for. -/
lemma roomRequested_of_mem_add (s : ContentStore) {entry : CachedContent} {strategy : Option κ}
    {event : Event} (h : event ∈ (s.add entry strategy).events) :
    ∃ stored incoming handled, event = .roomRequested stored incoming handled := by
  have hasked : event ∈ (s.askForRoom strategy entry.packet).2.2.2 →
      ∃ stored incoming handled, event = .roomRequested stored incoming handled := by
    intro hevent
    unfold askForRoom at hevent
    split at hevent
    · cases hevent
    · exact ⟨_, _, _, List.mem_singleton.mp hevent⟩
  have hadds := s.adds entry strategy
  generalize s.add entry strategy = added at h hadds
  cases hadds with
  | present _ => cases h
  | roomy _ _ => cases h
  | crowded _ _ _ => exact hasked h
  | cleared _ _ _ => exact hasked h

lemma add_cases (hκ : CacheStrategy.OnlyRemoves κ) (s : ContentStore) (entry : CachedContent)
    (strategy : Option κ) :
    s.Stored entry (s.add entry strategy) ∨ s.Refused (s.add entry strategy) := by
  have hcleared := s.toList_cleared_sublist hκ strategy entry.packet
  have hpacked := s.packed_cleared strategy entry.packet
  have hslots : (s.cleared strategy entry.packet).entries.slots.length ≤
      s.entries.slots.length := by
    rw [hpacked.length_slots, SlotTable.len_eq_length_toList]
    exact Nat.le_trans hcleared.length_le (List.length_filterMap_le id s.entries.slots)
  have hadds := s.adds entry strategy
  generalize s.add entry strategy = added at hadds ⊢
  cases hadds with
  | present _ => exact .inr ⟨⟨_, rfl⟩, List.Sublist.refl _, fun hs => hs⟩
  | roomy _ _ =>
    exact .inl (stored_insert (List.Sublist.refl _) (Nat.le_refl _) (fun hs => hs) entry _ _)
  | crowded _ _ _ => exact .inr ⟨⟨_, rfl⟩, hcleared, fun _ => hpacked⟩
  | cleared _ _ _ => exact .inl (stored_insert hcleared hslots (fun _ => hpacked) entry _ _)

end ContentStore

end NamedRelay
