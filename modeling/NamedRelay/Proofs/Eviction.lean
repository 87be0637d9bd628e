import NamedRelay.Proofs.Failure

/-!
# Who is let in and who has to go

What an addition to the content store comes to, exactly. Content of a name that is stored is refused
and nobody is asked. Where there is room nothing goes. In a full store the strategy is asked once,
and unless it has dealt with the matter, the entry unused for longest goes: of those it has left,
the first one among the oldest that are not pinned. Whoever is left stays in order, and the new
entry comes last, or is refused in a store that is as it was.
-/

namespace NamedRelay

open CacheStrategy

namespace ContentStore

/-- Content of the name is stored: of its family, with the same components and the same chunk. -/
def Holds (s : ContentStore) (name : Name) : Prop :=
  ∃ e ∈ s.entries.toList, e.name.suite = name.suite ∧ e.name.components = name.components ∧
    e.name.chunk = name.chunk

lemma holds_iff (s : ContentStore) (name : Name) : s.Holds name ↔ name ∈ s.names := by
  unfold Holds names
  simp only [List.mem_map, Name.eq_iff]

/-- The first of the oldest entries that are not pinned goes, if there is one. -/
inductive Evicts (entries : List CachedContent) : List CachedContent → Prop where
  | pinned : (∀ e ∈ entries, e.flags.isStatic = true) → Evicts entries entries
  | oldest {before after : List CachedContent} {victim : CachedContent} :
      entries = before ++ victim :: after → victim.flags.isStatic = false →
      (∀ e ∈ before, e.flags.isStatic = false → victim.lastUsed.ms < e.lastUsed.ms) →
      (∀ e ∈ after, e.flags.isStatic = false → victim.lastUsed.ms ≤ e.lastUsed.ms) →
      Evicts entries (before ++ after)

/-- By default the entry unused for longest is evicted, and no other. -/
lemma evicts_evictOldest {s : ContentStore} (hslots : s.entries.slots.length ≤ UInt32.size) :
    Evicts s.entries.toList s.evictOldest.entries.toList := by
  unfold evictOldest
  split
  · rename_i h holdest
    obtain ⟨victim, before, after, hsplit, hfree, hbefore, hafter⟩ :=
      split_of_oldestEvictable holdest
    have hentries : s.entries.toList =
        before.map Prod.snd ++ victim :: after.map Prod.snd := by
      rw [← SlotTable.map_snd_entries, hsplit, List.map_append, List.map_cons]
    have hleft : (s.remove h).2.entries.toList = before.map Prod.snd ++ after.map Prod.snd :=
      SlotTable.toList_remove_of_entries hslots hsplit
    rw [hleft]
    refine .oldest hentries hfree ?_ ?_
    · rintro e he
      obtain ⟨x, hx, rfl⟩ := List.mem_map.mp he
      exact hbefore x hx
    · rintro e he
      obtain ⟨x, hx, rfl⟩ := List.mem_map.mp he
      exact hafter x hx
  · rename_i hnone
    exact .pinned (isStatic_of_oldestEvictable_eq_none hnone)

variable {κ : Type} [CacheStrategy κ]

/-- What is kept of a full store that `incoming` wants in. -/
structure MakesRoom (s : ContentStore) (strategy : Option κ) (incoming : Packet)
    (kept : List CachedContent) : Prop where
  alone : strategy = none → s.entries.slots.length ≤ UInt32.size → Evicts s.entries.toList kept
  handled : ∀ k, strategy = some k → (makeRoom k s incoming).1 = true →
    kept = (makeRoom k s incoming).2.1.toList
  declined : ∀ k, strategy = some k → (makeRoom k s incoming).1 = false →
    (makeRoom k s incoming).2.1.slots.length ≤ UInt32.size →
    Evicts (makeRoom k s incoming).2.1.toList kept
  survivors : kept.Sublist s.entries.toList

lemma makesRoom_cleared (hκ : OnlyRemoves κ) (s : ContentStore) (strategy : Option κ)
    (incoming : Packet) :
    s.MakesRoom strategy incoming (s.cleared strategy incoming).entries.toList where
  alone hnone hslots := by
    subst hnone
    change Evicts _ s.evictOldest.entries.compact.toList
    rw [SlotTable.toList_compact]
    exact evicts_evictOldest hslots
  handled k hk hhandled := by
    subst hk
    unfold cleared askForRoom
    dsimp only
    rw [if_pos hhandled]
    exact SlotTable.toList_compact _
  declined k hk hdeclined hslots := by
    subst hk
    unfold cleared askForRoom
    dsimp only
    rw [hdeclined]
    change Evicts _ (SlotTable.compact _).toList
    rw [SlotTable.toList_compact]
    exact evicts_evictOldest (s := { s with entries := (makeRoom k s incoming).2.1 }) hslots
  survivors := s.toList_cleared_sublist hκ strategy incoming

/-- What a strategy that is asked for room leaves in the log. -/
def roomRequest (s : ContentStore) (incoming : Packet) (k : κ) : Event :=
  .roomRequested s.entries.toList.length incoming.name (makeRoom k s incoming).1

lemma asked_eq (s : ContentStore) (strategy : Option κ) (incoming : Packet) :
    (s.askForRoom strategy incoming).2.2 =
      (strategy.map fun k => (makeRoom k s incoming).2.2,
        (strategy.map (s.roomRequest incoming)).toList) := by
  cases strategy with
  | none => rfl
  | some k =>
    unfold roomRequest
    rw [← SlotTable.len_eq_length_toList]
    rfl

/-- What an addition comes to. Handles are 32 bits wide, so the one that is given out is told apart
from others in a table of fewer slots. -/
structure Admits (s : ContentStore) (entry : CachedContent) (strategy : Option κ)
    (added : Addition κ) : Prop where
  present : added.result = .error (.alreadyPresent .content) ↔ s.Holds entry.name
  untouched : s.Holds entry.name →
    added.store = s ∧ added.strategy = strategy ∧ added.events = []
  roomy : ¬s.Holds entry.name → (s.capacity = 0 ∨ s.entries.toList.length < s.capacity) →
    added.result.isOk = true ∧ added.store.entries.toList = s.entries.toList ++ [entry] ∧
      added.strategy = strategy ∧ added.events = []
  full : ¬s.Holds entry.name → s.capacity ≠ 0 → s.capacity ≤ s.entries.toList.length →
    ∃ kept, s.MakesRoom strategy entry.packet kept ∧
      added.strategy = strategy.map (fun k => (makeRoom k s entry.packet).2.2) ∧
      added.events = (strategy.map (s.roomRequest entry.packet)).toList ∧
      (added.result = .error (.capacityExceeded .contentStore s.capacity) ↔
        s.capacity ≤ kept.length) ∧
      (s.capacity ≤ kept.length → added.store.entries.toList = s.entries.toList) ∧
      (kept.length < s.capacity →
        added.result.isOk = true ∧ added.store.entries.toList = kept ++ [entry])
  handle : ∀ h, added.result = .ok h → s.entries.slots.length < UInt32.size →
    added.store.get? h = some entry
  capacity : added.store.capacity = s.capacity

omit [CacheStrategy κ] in
lemma isFull_iff (s : ContentStore) :
    s.isFull = true ↔ s.capacity ≠ 0 ∧ s.capacity ≤ s.entries.toList.length := by
  simp [isFull, len, SlotTable.len_eq_length_toList]

omit [CacheStrategy κ] in
lemma not_roomy_of_isFull {s : ContentStore} (hfull : s.isFull = true) :
    ¬(s.capacity = 0 ∨ s.entries.toList.length < s.capacity) := by
  obtain ⟨hlimit, hlen⟩ := s.isFull_iff.mp hfull
  exact not_or.mpr ⟨hlimit, Nat.not_lt.mpr hlen⟩

omit [CacheStrategy κ] in
lemma findExact?_eq_none_iff_not_holds (s : ContentStore) (name : Name) :
    s.findExact? name = none ↔ ¬s.Holds name := by
  rw [holds_iff, findExact?_eq_none_iff]

lemma admits_of_adds (hκ : OnlyRemoves κ) {s : ContentStore} (hs : s.WithinCapacity)
    {entry : CachedContent} {strategy : Option κ} {added : Addition κ}
    (h : s.Adds entry strategy added) (hhandle : ∀ h, added.result = .ok h →
      s.entries.slots.length < UInt32.size → added.store.get? h = some entry) :
    s.Admits entry strategy added := by
  have hasked := s.asked_eq strategy entry.packet
  have hmakesRoom := s.makesRoom_cleared hκ strategy entry.packet
  have hcapacity := s.capacity_cleared strategy entry.packet
  have hlength := (s.cleared strategy entry.packet).isFull_iff
  rw [hcapacity] at hlength
  cases h with
  | present hfound =>
    have hholds : s.Holds entry.name := by
      by_contra hnew
      rw [(s.findExact?_eq_none_iff_not_holds entry.name).mpr hnew] at hfound
      cases hfound
    exact ⟨iff_of_true rfl hholds, fun _ => ⟨rfl, rfl, rfl⟩, fun hnew => absurd hholds hnew,
      fun hnew => absurd hholds hnew, hhandle, rfl⟩
  | roomy hnew hroom =>
    have hholds := (s.findExact?_eq_none_iff_not_holds entry.name).mp hnew
    refine ⟨iff_of_false nofun hholds, fun h => absurd h hholds, ?_, ?_, hhandle, rfl⟩
    · exact fun _ _ => ⟨rfl, s.entries.toList_insert entry, rfl, rfl⟩
    · intro _ hlimit hfull
      rw [s.isFull_iff.mpr ⟨hlimit, hfull⟩] at hroom
      cases hroom
  | crowded hnew hfull hcrowded =>
    have hholds := (s.findExact?_eq_none_iff_not_holds entry.name).mp hnew
    have hstill := (hlength.mp hcrowded).2
    refine ⟨iff_of_false nofun hholds, fun h => absurd h hholds, ?_, ?_, hhandle, hcapacity⟩
    · exact fun _ hroomy => absurd hroomy (not_roomy_of_isFull hfull)
    · intro _ _ _
      refine ⟨_, hmakesRoom, congrArg Prod.fst hasked, congrArg Prod.snd hasked,
        iff_of_true rfl hstill, fun _ => toList_cleared_of_isFull hκ hs hcrowded, ?_⟩
      intro hlt
      omega
  | cleared hnew hfull hcleared =>
    have hholds := (s.findExact?_eq_none_iff_not_holds entry.name).mp hnew
    obtain ⟨hlimit, -⟩ := s.isFull_iff.mp hfull
    have hless : ¬s.capacity ≤ (s.cleared strategy entry.packet).entries.toList.length := by
      intro hstill
      rw [hlength.mpr ⟨hlimit, hstill⟩] at hcleared
      cases hcleared
    refine ⟨iff_of_false nofun hholds, fun h => absurd h hholds, ?_, ?_, hhandle, hcapacity⟩
    · exact fun _ hroomy => absurd hroomy (not_roomy_of_isFull hfull)
    · intro _ _ _
      exact ⟨_, hmakesRoom, congrArg Prod.fst hasked, congrArg Prod.snd hasked,
        iff_of_false nofun hless, fun hstill => absurd hstill hless,
        fun _ => ⟨rfl, SlotTable.toList_insert _ entry⟩⟩

/-- The handle that is given out leads to the new entry. -/
lemma get?_of_add (hκ : OnlyRemoves κ) (s : ContentStore) (entry : CachedContent)
    (strategy : Option κ) (h : Handle) (hok : (s.add entry strategy).result = .ok h)
    (hroom : s.entries.slots.length < UInt32.size) :
    (s.add entry strategy).store.get? h = some entry := by
  rcases s.add_cases hκ entry strategy with hstored | hrefused
  · obtain ⟨h', hok', hget⟩ := hstored.handle hroom
    rw [hok] at hok'
    cases hok'
    exact hget
  · obtain ⟨e, he⟩ := hrefused.error
    rw [hok] at he
    cases he

end ContentStore

namespace Sample

/-- Content of a name of one byte, last used at the given time. -/
def copyOf (letter : UInt8) (used : UInt64) : CachedContent where
  packet := { content letter with
    name := ⟨.ccnb, [[letter]], none, by simp [maxComponents],
      by simp [componentBytes, maxNameBytes]⟩
    suite_eq := rfl }
  lastUsed := ⟨used⟩

/-- A full store. The oldest entry is pinned, and the two others are as old as each other. -/
def shelf : ContentStore where
  entries := { slots := [some ((copyOf 1 0).pinIf true), some (copyOf 2 5), some (copyOf 3 5)] }
  capacity := 3

/-- The strategy takes the first entry away, and leaves the rest to the store. -/
def declining : CachePolicy :=
  { removal := .first, longest := none }

end Sample

end NamedRelay
