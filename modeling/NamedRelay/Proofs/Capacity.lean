import NamedRelay.Proofs.CacheSteps

/-!
# How full the store gets, and with what

A store with a limit holds no more entries than that, and no store holds two entries of one name.
Adding an entry keeps both however a strategy makes room, as long as it does so by removing entries;
and content that takes the place of its stale copy has the name that the copy had. In a relay the
copy is found by a search, whose handle leads to it while there are no more slots than handles.
-/

namespace NamedRelay

/-- What is left of items that may go or change, seen by what the changes leave alone. -/
lemma map_filterMap_sublist {α β : Type} {f : α → Option α} {g : α → β}
    (hg : ∀ x y, f x = some y → g y = g x) (items : List α) :
    ((items.filterMap f).map g).Sublist (items.map g) := by
  induction items with
  | nil => exact .slnil
  | cons x items ih =>
    cases hx : f x with
    | none =>
      rw [List.filterMap_cons_none hx]
      exact ih.cons _
    | some y =>
      rw [List.filterMap_cons_some hx, List.map_cons, List.map_cons, hg x y hx]
      exact ih.cons_cons _

namespace ContentStore

/-- The names that are cached, in the order of the store. -/
def names (s : ContentStore) : List Name :=
  s.entries.toList.map CachedContent.name

/-- No limit is passed; a capacity of zero sets none. -/
def WithinCapacity (s : ContentStore) : Prop :=
  s.capacity ≠ 0 → s.len ≤ s.capacity

/-- No two entries agree on family, components and chunk number. -/
def WithoutDoubles (s : ContentStore) : Prop :=
  s.entries.toList.Pairwise fun c d =>
    ¬(c.name.suite = d.name.suite ∧ c.name.components = d.name.components ∧
      c.name.chunk = d.name.chunk)

lemma withoutDoubles_iff (s : ContentStore) : s.WithoutDoubles ↔ s.names.Nodup := by
  unfold WithoutDoubles names List.Nodup
  rw [List.pairwise_map]
  simp only [ne_eq, Name.eq_iff]

lemma length_names (s : ContentStore) : s.names.length = s.len := by
  unfold names len
  rw [List.length_map, SlotTable.len_eq_length_toList]

lemma names_insert (s : ContentStore) (entry : CachedContent) :
    (s.insert entry).2.names = s.names ++ [entry.name] := by
  simp [names, insert]

lemma len_le_of_names {s s' : ContentStore} (h : s'.names.Sublist s.names) : s'.len ≤ s.len := by
  rw [← length_names, ← length_names]
  exact h.length_le

lemma WithinCapacity.of_len_le {s s' : ContentStore} (hs : s.WithinCapacity)
    (hcapacity : s'.capacity = s.capacity) (hlen : s'.len ≤ s.len) : s'.WithinCapacity := by
  intro hlimit
  rw [hcapacity] at hlimit ⊢
  exact Nat.le_trans hlen (hs hlimit)

/-- Entries may go, and what else changes in an entry is not its name. -/
structure Shrinks (s s' : ContentStore) : Prop where
  capacity : s'.capacity = s.capacity
  names : s'.names.Sublist s.names
  packed : s.entries.Packed → s'.entries.Packed

namespace Shrinks

variable {s s' : ContentStore}

lemma refl (s : ContentStore) : s.Shrinks s :=
  ⟨rfl, List.Sublist.refl _, id⟩

lemma modify (s : ContentStore) (h : Handle) {change : CachedContent → CachedContent}
    (hname : ∀ c, (change c).name = c.name) : s.Shrinks (s.modify h change) := by
  have hnames : (s.modify h change).names = s.names := s.entries.map_toList_modify h hname
  refine ⟨rfl, ?_, fun hpacked => hpacked.modify h change⟩
  rw [hnames]

lemma withinCapacity (h : s.Shrinks s') (hs : s.WithinCapacity) : s'.WithinCapacity :=
  hs.of_len_le h.capacity (len_le_of_names h.names)

lemma withoutDoubles (h : s.Shrinks s') (hs : s.WithoutDoubles) : s'.WithoutDoubles := by
  rw [withoutDoubles_iff] at hs ⊢
  exact hs.sublist h.names

end Shrinks

/-- Removing an entry may leave its slot empty. -/
lemma names_remove_sublist (s : ContentStore) (h : Handle) :
    (s.remove h).2.names.Sublist s.names :=
  (s.entries.toList_remove_sublist h).map CachedContent.name

lemma compact_shrinks (s : ContentStore) : s.Shrinks s.compact := by
  refine ⟨rfl, ?_, fun _ => SlotTable.packed_compact _⟩
  unfold names compact
  dsimp only
  rw [SlotTable.toList_compact]

/-! ## Adding -/

section

variable {κ : Type} [CacheStrategy κ]

lemma capacity_cleared (s : ContentStore) (strategy : Option κ) (incoming : Packet) :
    (s.cleared strategy incoming).capacity = s.capacity := by
  have hasked : (s.askForRoom strategy incoming).2.1.capacity = s.capacity := by
    unfold askForRoom
    split <;> rfl
  unfold cleared compact
  dsimp only
  split
  · exact hasked
  · unfold evictOldest
    split
    · exact hasked
    · exact hasked

lemma cleared_shrinks (hκ : CacheStrategy.OnlyRemoves κ) (s : ContentStore) (strategy : Option κ)
    (incoming : Packet) : s.Shrinks (s.cleared strategy incoming) where
  capacity := s.capacity_cleared strategy incoming
  names := (s.toList_cleared_sublist hκ strategy incoming).map CachedContent.name
  packed _ := s.packed_cleared strategy incoming

/-- The new entry comes after what is left of the store, where there is room for it. -/
lemma store_add_cases (hκ : CacheStrategy.OnlyRemoves κ) (s : ContentStore)
    (entry : CachedContent) (strategy : Option κ) :
    s.Shrinks (s.add entry strategy).store ∨
      s.findExact? entry.name = none ∧ ∃ rest, s.Shrinks rest ∧ rest.isFull = false ∧
        (s.add entry strategy).store = (rest.insert entry).2 := by
  have hcleared := s.cleared_shrinks hκ strategy entry.packet
  have hadds := s.adds entry strategy
  generalize s.add entry strategy = added at hadds ⊢
  cases hadds with
  | present _ => exact .inl (.refl s)
  | roomy hnew hroom => exact .inr ⟨hnew, s, .refl s, hroom, rfl⟩
  | crowded _ _ _ => exact .inl hcleared
  | cleared hnew _ hroom => exact .inr ⟨hnew, _, hcleared, hroom, rfl⟩

lemma capacity_add (s : ContentStore) (entry : CachedContent) (strategy : Option κ) :
    (s.add entry strategy).store.capacity = s.capacity := by
  have hcleared := s.capacity_cleared strategy entry.packet
  have hadds := s.adds entry strategy
  generalize s.add entry strategy = added at hadds ⊢
  cases hadds with
  | present _ => rfl
  | roomy _ _ => rfl
  | crowded _ _ _ => exact hcleared
  | cleared _ _ _ => exact hcleared

lemma packed_add {s : ContentStore} (hs : s.entries.Packed) (entry : CachedContent)
    (strategy : Option κ) : (s.add entry strategy).store.entries.Packed := by
  have hcleared := s.packed_cleared strategy entry.packet
  have hadds := s.adds entry strategy
  generalize s.add entry strategy = added at hadds ⊢
  cases hadds with
  | present _ => exact hs
  | roomy _ _ => exact hs.insert entry
  | crowded _ _ _ => exact hcleared
  | cleared _ _ _ => exact hcleared.insert entry

lemma WithinCapacity.add (hκ : CacheStrategy.OnlyRemoves κ) {s : ContentStore}
    (hs : s.WithinCapacity) (entry : CachedContent) (strategy : Option κ) :
    (s.add entry strategy).store.WithinCapacity := by
  rcases s.store_add_cases hκ entry strategy with hshrinks | ⟨-, rest, -, hroom, hadded⟩
  · exact hshrinks.withinCapacity hs
  · rw [hadded]
    intro hlimit
    have hlt : rest.len < rest.capacity := by
      have hlimit' : rest.capacity ≠ 0 := hlimit
      simpa [isFull, hlimit'] using hroom
    rw [← length_names, names_insert, List.length_append, length_names]
    exact hlt

omit [CacheStrategy κ] in
lemma findExact?_eq_none_iff (s : ContentStore) (name : Name) :
    s.findExact? name = none ↔ name ∉ s.names := by
  unfold findExact? names
  rw [SlotTable.find?_eq_none]
  simp only [← Bool.not_eq_true, Name.isSame_iff, List.mem_map, not_exists, not_and]

lemma WithoutDoubles.add (hκ : CacheStrategy.OnlyRemoves κ) {s : ContentStore}
    (hs : s.WithoutDoubles) (entry : CachedContent) (strategy : Option κ) :
    (s.add entry strategy).store.WithoutDoubles := by
  rcases s.store_add_cases hκ entry strategy with hshrinks | ⟨hnew, rest, hrest, -, hadded⟩
  · exact hshrinks.withoutDoubles hs
  · have hfresh : entry.name ∉ s.names := (s.findExact?_eq_none_iff entry.name).mp hnew
    rw [withoutDoubles_iff] at hs ⊢
    rw [hadded, names_insert, List.nodup_append]
    refine ⟨hs.sublist hrest.names, List.nodup_singleton _, ?_⟩
    intro name hname new hnew' heq
    rw [List.mem_singleton.mp hnew'] at heq
    exact hfresh (heq ▸ hrest.names.subset hname)

end

/-! ## Refreshing -/

/-- In a store whose slots all have handles, what takes the place of a copy has its name. -/
lemma names_refresh {s : ContentStore} {name : Name} {h : Handle}
    {change : CachedContent → CachedContent} (hslots : s.entries.slots.length ≤ UInt32.size)
    (hfound : s.findExact? name = some h) (hname : ∀ c, (change c).name = name) :
    (s.modify h change).names = s.names := by
  obtain ⟨before, copy, after, -, hsame, -, hl, hl'⟩ := SlotTable.split_of_find? hslots hfound
  have hcopy : copy.name = name := (Name.isSame_iff _ _).mp hsame
  unfold names modify
  dsimp only
  rw [hl, hl' change]
  simp [hname, hcopy]

lemma len_modify (s : ContentStore) (h : Handle) (change : CachedContent → CachedContent) :
    (s.modify h change).len = s.len := by
  have hlengths := s.entries.map_toList_modify h (f := change) (g := fun _ => ()) (fun _ => rfl)
  unfold len modify
  rw [SlotTable.len_eq_length_toList, SlotTable.len_eq_length_toList]
  simpa using congrArg List.length hlengths

end ContentStore

/-! ## Operations on a store -/

/-- What the program can do to a store of its own. -/
inductive StoreOperation (κ : Type) where
  | add (entry : CachedContent) (strategy : Option κ)
  | remove (h : Handle)
  | compact
  | setFlags (h : Handle) (flags : ContentFlags)

namespace StoreOperation

variable {κ : Type} [CacheStrategy κ]

def run : StoreOperation κ → ContentStore → ContentStore
  | add entry strategy, s => (s.add entry strategy).store
  | remove h, s => (s.remove h).2
  | compact, s => s.compact
  | setFlags h flags, s => s.modify h fun c => { c with flags }

/-- The store that operations leave one after the other. -/
def runAll (ops : List (StoreOperation κ)) (s : ContentStore) : ContentStore :=
  ops.foldl (fun s op => op.run s) s

omit [CacheStrategy κ] in
lemma setFlags_shrinks (s : ContentStore) (h : Handle) (flags : ContentFlags) :
    s.Shrinks (s.modify h fun c => { c with flags }) :=
  .modify s h fun _ => rfl

lemma capacity_run (op : StoreOperation κ) (s : ContentStore) :
    (op.run s).capacity = s.capacity := by
  cases op with
  | add entry strategy => exact s.capacity_add entry strategy
  | remove h => rfl
  | compact => rfl
  | setFlags h flags => rfl

lemma withinCapacity_run (hκ : CacheStrategy.OnlyRemoves κ) (op : StoreOperation κ)
    {s : ContentStore} (hs : s.WithinCapacity) : (op.run s).WithinCapacity := by
  cases op with
  | add entry strategy => exact hs.add hκ entry strategy
  | remove h => exact hs.of_len_le rfl (ContentStore.len_le_of_names (s.names_remove_sublist h))
  | compact => exact s.compact_shrinks.withinCapacity hs
  | setFlags h flags => exact (setFlags_shrinks s h flags).withinCapacity hs

lemma withoutDoubles_run (hκ : CacheStrategy.OnlyRemoves κ) (op : StoreOperation κ)
    {s : ContentStore} (hs : s.WithoutDoubles) : (op.run s).WithoutDoubles := by
  cases op with
  | add entry strategy => exact hs.add hκ entry strategy
  | remove h =>
    rw [ContentStore.withoutDoubles_iff] at hs ⊢
    exact hs.sublist (s.names_remove_sublist h)
  | compact => exact s.compact_shrinks.withoutDoubles hs
  | setFlags h flags => exact (setFlags_shrinks s h flags).withoutDoubles hs

lemma runAll_keeps (hκ : CacheStrategy.OnlyRemoves κ) (ops : List (StoreOperation κ))
    {s : ContentStore} (hlimit : s.WithinCapacity) (hdoubles : s.WithoutDoubles) :
    (runAll ops s).capacity = s.capacity ∧ (runAll ops s).WithinCapacity ∧
      (runAll ops s).WithoutDoubles := by
  induction ops generalizing s with
  | nil => exact ⟨rfl, hlimit, hdoubles⟩
  | cons op ops ih =>
    obtain ⟨hcapacity, hrest⟩ := ih (op.withinCapacity_run hκ hlimit)
      (op.withoutDoubles_run hκ hdoubles)
    exact ⟨hcapacity.trans (op.capacity_run s), hrest⟩

end StoreOperation

/-! ## Operations on a relay -/

namespace ContentStore

variable {κ : Type} [CacheStrategy κ]

/-- What an operation on a relay does to the store: entries may go or change under their names, an
entry is added, or content takes the place of its copy. -/
inductive Evolves (κ : Type) [CacheStrategy κ] (s : ContentStore) : ContentStore → Prop where
  | shrinks {s' : ContentStore} : s.Shrinks s' → s.Evolves κ s'
  | adds (entry : CachedContent) (strategy : Option κ) {s' : ContentStore} :
      (s.add entry strategy).store.Shrinks s' → s.Evolves κ s'
  | refreshes {name : Name} {h : Handle} {change : CachedContent → CachedContent} :
      s.findExact? name = some h → (∀ c, (change c).name = name) →
      s.Evolves κ (s.modify h change)

namespace Evolves

variable {s s' : ContentStore}

lemma capacity (h : s.Evolves κ s') :
    s'.capacity = s.capacity := by
  cases h with
  | shrinks h => exact h.capacity
  | adds entry strategy h => exact h.capacity.trans (s.capacity_add entry strategy)
  | refreshes _ _ => rfl

lemma packed (h : s.Evolves κ s') (hs : s.entries.Packed) :
    s'.entries.Packed := by
  cases h with
  | shrinks h => exact h.packed hs
  | adds entry strategy h => exact h.packed (packed_add hs entry strategy)
  | refreshes _ _ => exact hs.modify _ _

lemma withinCapacity (hκ : CacheStrategy.OnlyRemoves κ) (h : s.Evolves κ s')
    (hs : s.WithinCapacity) : s'.WithinCapacity := by
  cases h with
  | shrinks h => exact h.withinCapacity hs
  | adds entry strategy h => exact h.withinCapacity (hs.add hκ entry strategy)
  | refreshes _ _ => exact hs.of_len_le rfl (Nat.le_of_eq (s.len_modify _ _))

lemma withoutDoubles (hκ : CacheStrategy.OnlyRemoves κ) (h : s.Evolves κ s')
    (hslots : s.entries.slots.length ≤ UInt32.size) (hs : s.WithoutDoubles) :
    s'.WithoutDoubles := by
  cases h with
  | shrinks h => exact h.withoutDoubles hs
  | adds entry strategy h => exact h.withoutDoubles (hs.add hκ entry strategy)
  | refreshes hfound hname =>
    rw [withoutDoubles_iff] at hs ⊢
    rwa [names_refresh hslots hfound hname]

end Evolves

/-- What a sweep leaves of the entries keeps their names. -/
lemma retain_shrinks (s : ContentStore) (timeout : UInt64) (now : Timestamp) :
    s.Shrinks { s with entries := s.entries.retain (CachedContent.age? timeout now) } where
  capacity := rfl
  names := by
    unfold names
    rw [SlotTable.toList_retain]
    apply map_filterMap_sublist
    intro c c' hage
    exact congrArg Packet.name (CachedContent.age?_eq_some hage).1
  packed _ := SlotTable.packed_retain _ _

lemma remove_compact_shrinks (s : ContentStore) (h : Handle) :
    s.Shrinks (s.remove h).2.compact where
  capacity := rfl
  names := (s.remove h).2.compact_shrinks.names.trans (s.names_remove_sublist h)
  packed _ := SlotTable.packed_compact _

end ContentStore

namespace Cache

variable {σ κ : Type} {c c' : Cache κ}

lemma Credited.shrinks (h : c.Credited c') : c.store.Shrinks c'.store := by
  cases h with
  | same => exact .refl _
  | entry h hcredits => exact .modify _ h fun e => congrArg Packet.name (hcredits.packet e)

lemma Changes.evolves [CacheStrategy κ] {op : Operation σ κ} (h : c.Changes op c') :
    c.store.Evolves κ c'.store := by
  cases h with
  | credits hcredited => exact .shrinks hcredited.shrinks
  | asks content =>
    rw [store_ask]
    exact .shrinks (.refl _)
  | @refreshes content _ _ hfound hpacket _ =>
    unfold modify
    dsimp only
    rw [store_ask]
    exact .refreshes hfound fun e => congrArg Packet.name (hpacket e)
  | @adds c₁ _ entry hasked hcredited =>
    rw [← hasked.store]
    exact .adds entry c₁.strategy hcredited.shrinks
  | removes _ _ => exact .shrinks (c.store.remove_compact_shrinks _)
  | sweeps timeout now _ => exact .shrinks (c.store.retain_shrinks timeout now)
  | sets _ _ => exact .shrinks (.refl _)

end Cache

namespace Relay

variable {σ κ : Type}

/-! ## Along a run -/

lemma Takes.setup {r r' : Relay σ κ} {served : Option Packet} (h : r.Takes served r') :
    r'.config = r.config ∧ r'.digest = r.digest := by
  cases h with
  | records hr =>
    obtain ⟨m, t, handed, hm, -, hk, -⟩ := hr
    exact ⟨hk.config.trans hm.config, hk.digest.trans hm.digest⟩
  | serves hs =>
    obtain ⟨m, hm, hk, -⟩ := hs
    exact ⟨hk.config.trans hm.config, hk.digest.trans hm.digest⟩

lemma setup_removeFaces (r : Relay σ κ) (ids : List FaceId) :
    (r.removeFaces ids).config = r.config ∧ (r.removeFaces ids).digest = r.digest := by
  induction ids generalizing r with
  | nil => exact ⟨rfl, rfl⟩
  | cons id ids ih =>
    have hone : (r.removeFace id).2.config = r.config ∧ (r.removeFace id).2.digest = r.digest := by
      unfold removeFace
      split
      · exact ⟨rfl, rfl⟩
      · exact ⟨rfl, rfl⟩
    obtain ⟨hconfig, hdigest⟩ := ih (r.removeFace id).2
    exact ⟨hconfig.trans hone.1, hdigest.trans hone.2⟩

lemma store_create {config : Config} {clock : Timestamp} {digest : Bytes → Digest}
    {r : Relay σ κ} (hnew : create config clock digest = .ok r) :
    r.store = { capacity := r.config.maxCacheEntries } := by
  unfold create at hnew
  split at hnew
  · cases hnew
  · cases hnew
    rfl

variable [CacheStrategy κ]

/-- The configuration and the digest stay as they were set up. -/
lemma Effect.setup {r r' : Relay σ κ} {op : Operation σ κ} (h : r.Effect op r') :
    r'.config = r.config ∧ r'.digest = r.digest := by
  cases h with
  | takes ht => exact ht.setup
  | settles _ hs => exact ⟨hs.1.config, hs.1.digest⟩
  | removes _ _ => exact ⟨rfl, rfl⟩
  | ages _ ha =>
    obtain ⟨m, ids, handed, hm, rfl, -⟩ := ha
    obtain ⟨hconfig, hdigest⟩ := m.setup_removeFaces ids
    exact ⟨hconfig.trans hm.config, hdigest.trans hm.digest⟩

/-- The store has the configured limit and keeps to it, and none of its slots is empty. -/
structure Bounded (r : Relay σ κ) : Prop where
  capacity : r.store.capacity = r.config.maxCacheEntries
  packed : r.store.entries.Packed
  withinCapacity : r.store.WithinCapacity

variable [Scheduler σ]

lemma evolves_run (r : Relay σ κ) (op : Operation σ κ) : r.store.Evolves κ (op.run r).store :=
  (r.changes_run op).evolves

lemma Bounded.run (hκ : CacheStrategy.OnlyRemoves κ) {r : Relay σ κ} (hb : r.Bounded)
    (hl : r.Linked) (op : Operation σ κ) : (op.run r).Bounded where
  capacity := by
    rw [(r.evolves_run op).capacity, (effect_run hl op).setup.1]
    exact hb.capacity
  packed := (r.evolves_run op).packed hb.packed
  withinCapacity := (r.evolves_run op).withinCapacity hκ hb.withinCapacity

end Relay

section

variable {σ κ : Type} [Scheduler σ] [CacheStrategy κ]

lemma Reachable.bounded (hκ : CacheStrategy.OnlyRemoves κ) {r : Relay σ κ} (h : Reachable r) :
    r.Bounded := by
  induction h with
  | create config clock digest hnew =>
    have hstore := Relay.store_create hnew
    refine ⟨by rw [hstore], ?_, ?_⟩
    · rw [hstore]
      rintro _ ⟨⟩
    · rw [hstore]
      exact fun _ => Nat.zero_le _
  | run op hr ih => exact ih.run hκ hr.linked op

lemma Reachable.len_le (hκ : CacheStrategy.OnlyRemoves κ) {r : Relay σ κ} (h : Reachable r)
    (hlimit : r.config.maxCacheEntries ≠ 0) : r.store.len ≤ r.config.maxCacheEntries := by
  have hb := h.bounded hκ
  have hcapacity : r.store.capacity ≠ 0 := by
    rw [hb.capacity]
    exact hlimit
  calc r.store.len ≤ r.store.capacity := hb.withinCapacity hcapacity
    _ = r.config.maxCacheEntries := hb.capacity

/-- The operation starts with no more cached entries than there are handles. -/
def HandlesSuffice (r : Relay σ κ) (_ : Operation σ κ) : Prop :=
  r.store.len ≤ UInt32.size

/-- A limit that the handles suffice for sees to it that they do. -/
lemma Reachable.handlesSuffice (hκ : CacheStrategy.OnlyRemoves κ) {r : Relay σ κ}
    (h : Reachable r) (hlimit : r.config.maxCacheEntries ≠ 0)
    (hsize : r.config.maxCacheEntries ≤ UInt32.size) : ReachableBy HandlesSuffice r := by
  induction h with
  | create config clock digest hnew => exact .create config clock digest hnew
  | @run r op hr ih =>
    rw [(Relay.effect_run hr.linked op).setup.1] at hlimit hsize
    exact (ih hlimit hsize).run op (Nat.le_trans (hr.len_le hκ hlimit) hsize)

lemma ReachableBy.withoutDoubles (hκ : CacheStrategy.OnlyRemoves κ) {r : Relay σ κ}
    (h : ReachableBy HandlesSuffice r) : r.store.WithoutDoubles := by
  induction h with
  | create config clock digest hnew =>
    rw [Relay.store_create hnew]
    exact List.Pairwise.nil
  | @run r op hr hhandles ih =>
    have hslots : r.store.entries.slots.length ≤ UInt32.size := by
      rw [(hr.reachable.bounded hκ).packed.length_slots]
      exact hhandles
    exact (r.evolves_run op).withoutDoubles hκ hslots ih

end

namespace Sample

/-- Nothing has happened yet, and there is room for one cached entry. -/
def narrow : Relay Allowance CachePolicy :=
  { created with config := { config with maxCacheEntries := 1 }, store := { capacity := 1 } }

/-- The second content took the place of the first one, and went stale. -/
def crowded : Relay Allowance CachePolicy :=
  Operation.runAll [.addToCache (content 1), .addToCache fleeting, .doAgeing] narrow

lemma reachable_crowded : Reachable crowded :=
  (Reachable.create { config with maxCacheEntries := 1 } ⟨0⟩ digest rfl : Reachable narrow).runAll _

end Sample

end NamedRelay
