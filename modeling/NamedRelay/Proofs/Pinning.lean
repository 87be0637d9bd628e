import NamedRelay.Proofs.Capacity
import NamedRelay.Proofs.ServingPass

/-!
# Pinned content

Content that the relay's own application asked for is pinned where it is cached. A pin outlasts
every operation but the removal of its entry by path: eviction passes over pinned entries, a sweep
leaves them as they are, and a newer copy takes the pin over. A strategy that makes room has to
respect pins for that, and the entries have to have handles.
-/

namespace NamedRelay

namespace ContentStore

/-- An entry of this name is pinned. -/
def Pins (s : ContentStore) (name : Name) : Prop :=
  ∃ c ∈ s.entries.toList, c.name = name ∧ c.flags.isStatic = true

/-- What is pinned stays pinned. -/
def KeepsPins (s s' : ContentStore) : Prop :=
  ∀ name, s.Pins name → s'.Pins name

namespace KeepsPins

variable {s s' s'' : ContentStore}

lemma refl (s : ContentStore) : s.KeepsPins s :=
  fun _ => id

lemma trans (h : s.KeepsPins s') (h' : s'.KeepsPins s'') : s.KeepsPins s'' :=
  fun name hpins => h' name (h name hpins)

lemma of_forall (h : ∀ c ∈ s.entries.toList, c.flags.isStatic = true → c ∈ s'.entries.toList) :
    s.KeepsPins s' := by
  rintro name ⟨c, hc, hname, hstatic⟩
  exact ⟨c, h c hc hstatic, hname, hstatic⟩

/-- The entry that is changed keeps its name and its pin. -/
lemma modify {h : Handle} {change : CachedContent → CachedContent}
    (hkeeps : ∀ c, s.get? h = some c → (change c).name = c.name ∧
      (c.flags.isStatic = true → (change c).flags.isStatic = true)) :
    s.KeepsPins (s.modify h change) := by
  rintro name ⟨c, hc, hname, hstatic⟩
  cases hget : s.get? h with
  | none =>
    have hsame : (s.modify h change).entries.toList = s.entries.toList :=
      SlotTable.toList_modify_of_none hget change
    exact ⟨c, hsame ▸ hc, hname, hstatic⟩
  | some found =>
    obtain ⟨before, after, hl, hl'⟩ := SlotTable.split_of_get? hget
    have hlist : (s.modify h change).entries.toList = before ++ change found :: after := hl' change
    obtain ⟨hnamed, hpinned⟩ := hkeeps found hget
    unfold Pins
    rw [hl, List.mem_append, List.mem_cons] at hc
    rw [hlist]
    rcases hc with hc | rfl | hc
    · exact ⟨c, by simp [hc], hname, hstatic⟩
    · exact ⟨change c, by simp, hnamed.trans hname, hpinned hstatic⟩
    · exact ⟨c, by simp [hc], hname, hstatic⟩

lemma compact (s : ContentStore) : s.KeepsPins s.compact := by
  apply of_forall
  intro c hc _
  unfold ContentStore.compact
  rwa [SlotTable.toList_compact]

lemma insert (s : ContentStore) (entry : CachedContent) : s.KeepsPins (s.insert entry).2 :=
  of_forall fun _ hc _ => SlotTable.mem_insert.mpr (.inl hc)

end KeepsPins

/-- Removing another entry than a pinned one of the name leaves the pin. -/
lemma Pins.remove {s : ContentStore} {name : Name} (hs : s.Pins name) {h : Handle}
    (hother : ∀ c, s.get? h = some c → c.name = name → c.flags.isStatic = false) :
    (s.remove h).2.Pins name := by
  obtain ⟨c, hc, hname, hstatic⟩ := hs
  cases hget : s.get? h with
  | none =>
    have hsame : (s.remove h).2.entries = s.entries := SlotTable.remove_of_none hget
    exact ⟨c, hsame ▸ hc, hname, hstatic⟩
  | some removed =>
    obtain ⟨before, after, hl, hl'⟩ := SlotTable.split_of_remove hget
    have hlist : (s.remove h).2.entries.toList = before ++ after := hl'
    have hne : c ≠ removed := by
      rintro rfl
      rw [hother c hget hname] at hstatic
      cases hstatic
    rw [hl, List.mem_append, List.mem_cons] at hc
    refine ⟨c, ?_, hname, hstatic⟩
    rw [hlist, List.mem_append]
    rcases hc with hc | hc | hc
    · exact .inl hc
    · exact absurd hc hne
    · exact .inr hc

/-! ## Eviction -/

/-- The entry that is evicted by default is not pinned. -/
lemma get?_of_oldestEvictable {s : ContentStore} (hslots : s.entries.slots.length ≤ UInt32.size)
    {h : Handle} (holdest : s.oldestEvictable? = some h) :
    ∃ c, s.get? h = some c ∧ c.flags.isStatic = false := by
  obtain ⟨victim, before, after, hsplit, hfree, -⟩ := split_of_oldestEvictable holdest
  refine ⟨victim, SlotTable.get?_of_mem_entries hslots ?_, hfree⟩
  rw [hsplit]
  exact List.mem_append_right _ List.mem_cons_self

lemma evictOldest_keepsPins {s : ContentStore} (hslots : s.entries.slots.length ≤ UInt32.size) :
    s.KeepsPins s.evictOldest := by
  intro name hpins
  unfold evictOldest
  split
  · rename_i h holdest
    obtain ⟨evicted, hget, hfree⟩ := get?_of_oldestEvictable hslots holdest
    refine hpins.remove fun c hc _ => ?_
    rw [hget] at hc
    cases hc
    exact hfree
  · exact hpins

lemma length_slots_evictOldest (s : ContentStore) :
    s.evictOldest.entries.slots.length = s.entries.slots.length := by
  unfold evictOldest
  split
  · exact SlotTable.length_slots_remove _ _
  · rfl

end ContentStore

/-! ## Making room -/

/-- Strategies in a trusted state make room without removing or unpinning a pinned entry, and leave
a handle if there was one. They stay trusted. For runs without a strategy, no state is trusted. -/
structure CacheStrategy.KeepsPinned {κ : Type} [CacheStrategy κ] (Trusted : κ → Prop) : Prop where
  pins : ∀ k, Trusted k → ∀ (s : ContentStore) (incoming : Packet),
    s.KeepsPins { s with entries := (makeRoom k s incoming).2.1 }
  handles : ∀ k, Trusted k → ∀ (s : ContentStore) (incoming : Packet),
    s.entries.slots.length < UInt32.size →
    (makeRoom k s incoming).2.1.slots.length < UInt32.size
  asked : ∀ k, Trusted k → ∀ (s : ContentStore) (incoming : Packet),
    Trusted (makeRoom k s incoming).2.2
  admitting : ∀ k, Trusted k → ∀ (s : ContentStore) (content : Packet),
    Trusted (admits k s content).2

namespace ContentStore

variable {κ : Type} [CacheStrategy κ] {Trusted : κ → Prop} {s : ContentStore}
  {strategy : Option κ}

lemma askForRoom_keepsPins (hκ : CacheStrategy.KeepsPinned Trusted)
    (htrusted : ∀ k, strategy = some k → Trusted k)
    (hslots : s.entries.slots.length < UInt32.size) (incoming : Packet) :
    s.KeepsPins (s.askForRoom strategy incoming).2.1 ∧
      (s.askForRoom strategy incoming).2.1.entries.slots.length < UInt32.size ∧
      ∀ k, (s.askForRoom strategy incoming).2.2.1 = some k → Trusted k := by
  unfold askForRoom
  split
  · refine ⟨.refl s, hslots, ?_⟩
    rintro _ ⟨⟩
  · rename_i k
    have hk := htrusted k rfl
    refine ⟨hκ.pins k hk s incoming, hκ.handles k hk s incoming hslots, ?_⟩
    rintro _ ⟨⟩
    exact hκ.asked k hk s incoming

lemma cleared_keepsPins (hκ : CacheStrategy.KeepsPinned Trusted)
    (htrusted : ∀ k, strategy = some k → Trusted k)
    (hslots : s.entries.slots.length < UInt32.size) (incoming : Packet) :
    s.KeepsPins (s.cleared strategy incoming) ∧
      (s.cleared strategy incoming).entries.slots.length < UInt32.size := by
  obtain ⟨hpins, hleft, -⟩ := askForRoom_keepsPins hκ htrusted hslots incoming
  have hcompact : ∀ s' : ContentStore, s'.entries.slots.length < UInt32.size →
      s'.compact.entries.slots.length < UInt32.size :=
    fun s' => Nat.lt_of_le_of_lt s'.entries.length_slots_compact_le
  unfold cleared
  split
  · exact ⟨hpins.trans (.compact _), hcompact _ hleft⟩
  · have hevicted := evictOldest_keepsPins (Nat.le_of_lt hleft)
    refine ⟨(hpins.trans hevicted).trans (.compact _), hcompact _ ?_⟩
    rwa [length_slots_evictOldest]

/-- An addition keeps the pins, and a handle that is given out leads to the new entry. -/
lemma add_keepsPins (hκ : CacheStrategy.KeepsPinned Trusted)
    (htrusted : ∀ k, strategy = some k → Trusted k)
    (hslots : s.entries.slots.length < UInt32.size) (entry : CachedContent) :
    s.KeepsPins (s.add entry strategy).store ∧
      (∀ k, (s.add entry strategy).strategy = some k → Trusted k) ∧
      ∀ h, (s.add entry strategy).result = .ok h →
        (s.add entry strategy).store.get? h = some entry := by
  obtain ⟨-, -, hasked⟩ := askForRoom_keepsPins hκ htrusted hslots entry.packet
  obtain ⟨hcleared, hroom⟩ := cleared_keepsPins hκ htrusted hslots entry.packet
  have hadds := s.adds entry strategy
  generalize s.add entry strategy = added at hadds ⊢
  cases hadds with
  | present _ =>
    refine ⟨.refl s, htrusted, ?_⟩
    rintro _ ⟨⟩
  | roomy _ _ =>
    refine ⟨.insert s entry, htrusted, ?_⟩
    rintro _ ⟨⟩
    exact SlotTable.get?_insert_self hslots entry
  | crowded _ _ _ =>
    refine ⟨hcleared, hasked, ?_⟩
    rintro _ ⟨⟩
  | cleared _ _ _ =>
    refine ⟨hcleared.trans (.insert _ entry), hasked, ?_⟩
    rintro _ ⟨⟩
    exact SlotTable.get?_insert_self hroom entry

end ContentStore

/-! ## Ageing -/

namespace CachedContent

lemma age?_of_isStatic {c : CachedContent} (hstatic : c.flags.isStatic = true) (timeout : UInt64)
    (now : Timestamp) : c.age? timeout now = some c :=
  if_pos hstatic

lemma isStatic_of_age? {c c' : CachedContent} {timeout : UInt64} {now : Timestamp}
    (h : c.age? timeout now = some c') : c'.flags.isStatic = c.flags.isStatic := by
  unfold age? at h
  split at h
  · cases h
    rfl
  · split at h
    · cases h
    · split at h
      · cases h
        rfl
      · cases h
        rfl

/-- A sweep leaves pinned entries as they are, and pins none. -/
lemma filter_isStatic_filterMap_age? (timeout : UInt64) (now : Timestamp)
    (entries : List CachedContent) :
    (entries.filterMap (age? timeout now)).filter (fun c => c.flags.isStatic) =
      entries.filter fun c => c.flags.isStatic := by
  induction entries with
  | nil => rfl
  | cons c entries ih =>
    cases hstatic : c.flags.isStatic with
    | true =>
      rw [List.filterMap_cons_some (age?_of_isStatic hstatic timeout now)]
      simp [hstatic, ih]
    | false =>
      cases hage : c.age? timeout now with
      | none =>
        rw [List.filterMap_cons_none hage, ih]
        simp [hstatic]
      | some c' =>
        have hfree : c'.flags.isStatic = false := (isStatic_of_age? hage).trans hstatic
        rw [List.filterMap_cons_some hage]
        simp [hstatic, hfree, ih]

end CachedContent

/-! ## One operation -/

namespace Cache

variable {σ κ : Type} {c c' : Cache κ}

lemma Credited.keepsPins (h : c.Credited c') : c.store.KeepsPins c'.store := by
  cases h with
  | same => exact .refl _
  | entry h hcredits =>
    exact .modify fun e _ => ⟨congrArg Packet.name (hcredits.packet e), hcredits.pin e⟩

lemma Credited.strategy (h : c.Credited c') : c'.strategy = c.strategy := by
  cases h with
  | same => rfl
  | entry _ _ => rfl

variable [CacheStrategy κ] {Trusted : κ → Prop}

/-- No slot of the store is empty, and the strategy is trusted. -/
structure Sheltered (Trusted : κ → Prop) (c : Cache κ) : Prop where
  packed : c.store.entries.Packed
  trusted : ∀ k, c.strategy = some k → Trusted k

omit [CacheStrategy κ] in
lemma Sheltered.length_slots_lt (hc : c.Sheltered Trusted) (hlen : c.store.len < UInt32.size) :
    c.store.entries.slots.length < UInt32.size := by
  rw [hc.packed.length_slots]
  exact hlen

lemma trusted_ask (hκ : CacheStrategy.KeepsPinned Trusted)
    (htrusted : ∀ k, c.strategy = some k → Trusted k) (content : Packet) :
    ∀ k, (c.ask content).strategy = some k → Trusted k := by
  unfold ask
  split
  · exact htrusted
  · rename_i k hk
    rintro _ ⟨⟩
    exact hκ.admitting k (htrusted k hk) c.store content

lemma Asked.trusted (hκ : CacheStrategy.KeepsPinned Trusted) (h : c.Asked c')
    (htrusted : ∀ k, c.strategy = some k → Trusted k) :
    ∀ k, c'.strategy = some k → Trusted k := by
  cases h with
  | never => exact htrusted
  | once content => exact trusted_ask hκ htrusted content

lemma Changes.sheltered (hκ : CacheStrategy.KeepsPinned Trusted) {op : Operation σ κ}
    (h : c.Changes op c') (hc : c.Sheltered Trusted)
    (hslots : c.store.entries.slots.length < UInt32.size)
    (hset : ∀ k, op = .setStrategy k → Trusted k) : c'.Sheltered Trusted where
  packed := h.evolves.packed hc.packed
  trusted := by
    cases h with
    | credits hcredited =>
      rw [hcredited.strategy]
      exact hc.trusted
    | asks content => exact trusted_ask hκ hc.trusted content
    | refreshes _ _ _ => exact trusted_ask hκ hc.trusted _
    | adds entry hasked hcredited =>
      rw [← hasked.store] at hslots
      obtain ⟨-, htrusted, -⟩ :=
        ContentStore.add_keepsPins hκ (hasked.trusted hκ hc.trusted) hslots entry
      rw [hcredited.strategy]
      exact htrusted
    | removes _ _ => exact hc.trusted
    | sweeps _ _ _ => exact hc.trusted
    | sets k hop =>
      rintro _ ⟨⟩
      exact hset k hop

/-- A pin stays, unless its entry is removed by path. -/
lemma Changes.pins (hκ : CacheStrategy.KeepsPinned Trusted) {op : Operation σ κ}
    (h : c.Changes op c') (hc : c.Sheltered Trusted)
    (hslots : c.store.entries.slots.length < UInt32.size) {name : Name}
    (hkept : ∀ path h e, op = .removeCached path → c.store.lookupPath? path = some h →
      c.store.get? h = some e → e.name ≠ name)
    (hpins : c.store.Pins name) : c'.store.Pins name := by
  cases h with
  | credits hcredited => exact hcredited.keepsPins name hpins
  | asks content => rwa [store_ask]
  | @refreshes content h change hfound hpacket hpin =>
    have hkeeps : c.store.KeepsPins (c.store.modify h change) := by
      refine .modify fun e he => ⟨?_, hpin e⟩
      obtain ⟨copy, hcopy, hsame⟩ := SlotTable.get?_of_find? (Nat.le_of_lt hslots) hfound
      obtain rfl : e = copy := Option.some.inj (he.symm.trans hcopy)
      exact (congrArg Packet.name (hpacket e)).trans ((Name.isSame_iff _ _).mp hsame).symm
    unfold modify
    dsimp only
    rw [store_ask]
    exact hkeeps name hpins
  | adds entry hasked hcredited =>
    rw [← hasked.store] at hslots hpins
    obtain ⟨hadded, -, -⟩ :=
      ContentStore.add_keepsPins hκ (hasked.trusted hκ hc.trusted) hslots entry
    exact hcredited.keepsPins name (hadded name hpins)
  | @removes path h hop hfound =>
    refine ContentStore.KeepsPins.compact _ name (hpins.remove fun e he hname => ?_)
    exact absurd hname (hkept path h e hop hfound he)
  | sweeps timeout now _ =>
    refine ContentStore.KeepsPins.of_forall (fun e he hstatic => ?_) name hpins
    rw [SlotTable.toList_retain]
    exact List.mem_filterMap.mpr ⟨e, he, CachedContent.age?_of_isStatic hstatic timeout now⟩
  | sets _ _ => exact hpins

end Cache

/-! ## Along a run -/

section

variable {σ κ : Type} [CacheStrategy κ]

/-- There is a handle left, and a strategy that is set is trusted. -/
structure Trusting (Trusted : κ → Prop) (r : Relay σ κ) (op : Operation σ κ) : Prop where
  handle : r.store.len < UInt32.size
  strategy : ∀ k, op = .setStrategy k → Trusted k

namespace Operation

/-- The operation removes an entry of this name by its path. -/
def Selects (op : Operation σ κ) (r : Relay σ κ) (name : Name) : Prop :=
  ∃ path c, op = .removeCached path ∧ r.cachedAt? path = some c ∧ c.name = name

variable [Scheduler σ]

/-- Each operation of a run is permitted in the state it is done in. -/
def AllPermitted (Permits : Relay σ κ → Operation σ κ → Prop) :
    List (Operation σ κ) → Relay σ κ → Prop
  | [], _ => True
  | op :: ops, r => Permits r op ∧ AllPermitted Permits ops (op.run r)

end Operation

variable [Scheduler σ] {Trusted : κ → Prop} {r : Relay σ κ}

lemma ReachableBy.sheltered (hκ : CacheStrategy.KeepsPinned Trusted)
    (h : ReachableBy (Trusting Trusted) r) : r.cache.Sheltered Trusted := by
  induction h with
  | create config clock digest hnew =>
    unfold Relay.create at hnew
    split at hnew
    · cases hnew
    · cases hnew
      constructor
      · rintro _ ⟨⟩
      · rintro _ ⟨⟩
  | run op hr hpermitted ih =>
    have hslots := ih.length_slots_lt hpermitted.handle
    exact (Relay.changes_run _ op).sheltered hκ ih hslots hpermitted.strategy

lemma pins_run (hκ : CacheStrategy.KeepsPinned Trusted) (hr : r.cache.Sheltered Trusted)
    {op : Operation σ κ} (hpermitted : Trusting Trusted r op) {name : Name}
    (hkept : ¬op.Selects r name) (hpins : r.store.Pins name) : (op.run r).store.Pins name := by
  have hslots := hr.length_slots_lt hpermitted.handle
  refine (r.changes_run op).pins hκ hr hslots ?_ hpins
  rintro path h c rfl hfound hget rfl
  refine hkept ⟨path, c, rfl, ?_, rfl⟩
  unfold Relay.cachedAt?
  exact Option.bind_eq_some_iff.mpr ⟨h, hfound, hget⟩

/-- A pin stays along a run, unless an operation removes its entry by path. -/
lemma pins_runAll (hκ : CacheStrategy.KeepsPinned Trusted) (hr : r.cache.Sheltered Trusted)
    {name : Name} (hpins : r.store.Pins name) (ops : List (Operation σ κ))
    (hops : Operation.AllPermitted
      (fun r op => Trusting Trusted r op ∧ ¬op.Selects r name) ops r) :
    (Operation.runAll ops r).store.Pins name := by
  induction ops generalizing r with
  | nil => exact hpins
  | cons op ops ih =>
    obtain ⟨⟨hpermitted, hkept⟩, hrest⟩ := hops
    have hslots := hr.length_slots_lt hpermitted.handle
    have hr' := (r.changes_run op).sheltered hκ hr hslots hpermitted.strategy
    exact ih hr' (pins_run hκ hr hpermitted hkept hpins) hrest

end

/-! ## Content for the relay's own application -/

namespace Relay

variable {σ κ : Type}

/-- The handle of the cached entry that answers an interest. -/
def hitAt? (r : Relay σ κ) (interest : Packet) : Option Handle :=
  if (r.checkNonce interest).1 then none else r.lookupCached interest

lemma ownRequests_pos {r : Relay σ κ} {content : Packet} {e : PendingInterest}
    (he : e ∈ r.pending.toList) (hlocal : e.isLocal = true)
    (hsat : r.satisfies content e = true) : 0 < r.ownRequests content := by
  refine List.countP_pos_iff.mpr ⟨e, he, ?_⟩
  rw [hsat, hlocal]
  rfl

lemma isStatic_credited {r : Relay σ κ} {content : Packet} (hown : 0 < r.ownRequests content)
    (c : CachedContent) : (r.credited content c).flags.isStatic = true := by
  unfold credited
  rw [CachedContent.isStatic_pinIf, decide_eq_true hown, Bool.or_true]

section

variable [CacheStrategy κ]

/-- The entry that content becomes which is cached when it comes in. -/
def newEntry (r : Relay σ κ) (content : Packet) : CachedContent :=
  r.credited content { packet := content, lastUsed := r.clock }

/-- The handle of the cached entry that content which comes in is served from, or is put in: a copy
that is not stale, the stale copy whose place it takes, or the new entry. -/
def keptAt? (r : Relay σ κ) (content : Packet) : Option Handle :=
  match r.store.findExact? content.name with
  | some h => if (r.freshCopy? content).isSome || r.caches content then some h else none
  | none =>
    if r.caches content then
      match (r.store.add (r.newEntry content) (r.admission content).2).result with
      | .ok h => some h
      | .error _ => none
    else none

end

end Relay

/-- The handle of the cached entry that an operation serves content from, or puts it in. -/
def Operation.keptAt? {σ κ : Type} [CacheStrategy κ] : Operation σ κ → Relay σ κ → Option Handle
  | handleContent _ content, r => r.keptAt? content
  | addContent content, r =>
    match r.addToCache content with
    | (.ok h, _) => some h
    | (.error _, _) => none
  | servePending h, _ => some h
  | _, _ => none

namespace Relay

variable {σ κ : Type} [Scheduler σ] [CacheStrategy κ] {Trusted : κ → Prop} {r : Relay σ κ}

omit [Scheduler σ] in
lemma trusted_admission (hκ : CacheStrategy.KeepsPinned Trusted)
    (htrusted : ∀ k, r.strategy = some k → Trusted k) (content : Packet) :
    ∀ k, (r.admission content).2 = some k → Trusted k := by
  have hasked : (r.admission content).2 = (r.cache.ask content).strategy := by
    rw [← (r.askAdmission_eq content).2.1, ← cache_askAdmission]
    rfl
  rw [hasked]
  exact Cache.trusted_ask hκ htrusted content

omit [Scheduler σ] in
/-- Content that takes the place of a pinned copy is pinned. -/
lemma cacheServed_keeps_pin {h : Handle} {c : CachedContent} (hget : r.store.get? h = some c)
    (hstatic : c.flags.isStatic = true) (content : Packet) (served : Recipients) :
    ∃ c', (r.cacheServed (some h) content served).store.get? h = some c' ∧
      c'.packet = content ∧ c'.flags.isStatic = true := by
  refine ⟨((c.refresh content r.clock).recordServed served.count).pinIf served.ownRequest,
    ?_, rfl, ?_⟩
  · rw [store_cacheServed]
    dsimp only
    rw [ContentStore.get?_modify_self, hget]
    rfl
  · rw [CachedContent.isStatic_pinIf]
    simp [CachedContent.recordServed, CachedContent.refresh, CachedContent.touch, hstatic]

/-- Content that comes in is found at the handle afterwards, with its replies counted. -/
lemma get?_answerContent (hκ : CacheStrategy.KeepsPinned Trusted)
    (hr : r.cache.Sheltered Trusted) (hl : r.Linked)
    (hslots : r.store.entries.slots.length < UInt32.size) {content answer : Packet} {hd : Handle}
    (hanswer : r.answering content = some answer) (hkept : r.keptAt? content = some hd) :
    ∃ c, (r.answerContent content).store.get? hd = some (r.credited answer c) ∧
      c.packet = answer := by
  unfold keptAt? at hkept
  rcases answerContent_cases hanswer with
    ⟨h, copy, hfind, hcopy, rfl, hfresh, hserved⟩ | ⟨rfl, hnone, hnew | hstale⟩
  · rw [hfind, hfresh] at hkept
    cases hkept
    rw [hserved]
    exact ⟨copy, get?_servePending hl hcopy, rfl⟩
  · obtain ⟨hfind, haccepted⟩ := hnew
    rw [hfind] at hkept
    dsimp only at hkept
    split at hkept
    · rename_i hcached
      split at hkept
      · rename_i hadded
        cases hkept
        have htrusted := trusted_admission hκ hr.trusted content
        obtain ⟨-, -, hget⟩ :=
          ContentStore.add_keepsPins hκ htrusted hslots (r.newEntry content)
        rw [haccepted, store_acceptContent hl, if_pos hcached]
        exact ⟨_, hget hd hadded, rfl⟩
      · cases hkept
    · cases hkept
  · obtain ⟨h, copy, hfind, hcopy, -, haccepted⟩ := hstale
    rw [hfind] at hkept
    dsimp only at hkept
    rw [hnone, Option.isSome_none, Bool.false_or] at hkept
    split at hkept
    · rename_i hcached
      cases hkept
      rw [haccepted, store_acceptContent hl, if_pos hcached]
      dsimp only
      rw [ContentStore.get?_modify_self, hcopy]
      exact ⟨_, rfl, rfl⟩
    · cases hkept

lemma get?_handleContent (hκ : CacheStrategy.KeepsPinned Trusted)
    (hr : r.cache.Sheltered Trusted) (hl : r.Linked)
    (hslots : r.store.entries.slots.length < UInt32.size) {id : FaceId} {content answer : Packet}
    {hd : Handle} (hserved : r.servedFor? id content = some answer)
    (hkept : r.keptAt? content = some hd) :
    ∃ c, (r.handleContent id content).2.store.get? hd = some (r.credited answer c) ∧
      c.packet = answer := by
  unfold servedFor? at hserved
  rcases r.handleContent_cases id content with ⟨hrefused, -⟩ | ⟨hkind, hlive, hanswered⟩
  · rw [hrefused] at hserved
    cases hserved
  · rw [hkind, hlive] at hserved
    rw [hanswered]
    have hreceived := hl.of_keeps (r.contentReceived_acts id).toKeepsFaces
    exact get?_answerContent (r := r.contentReceived id) hκ hr hreceived hslots hserved hkept

omit [Scheduler σ] in
lemma get?_addToCache (hκ : CacheStrategy.KeepsPinned Trusted) (hr : r.cache.Sheltered Trusted)
    (hslots : r.store.entries.slots.length < UInt32.size) {content : Packet} {hd : Handle}
    {m : Relay σ κ} (hadded : r.addToCache content = (.ok hd, m)) :
    m.store.get? hd = some { packet := content, lastUsed := r.clock } := by
  obtain ⟨-, -, hget⟩ := ContentStore.add_keepsPins hκ hr.trusted hslots
    { packet := content, lastUsed := r.clock }
  rw [show m = (r.addToCache content).2 by rw [hadded]]
  exact hget hd (congrArg Prod.fst hadded)

lemma get?_addContent (hκ : CacheStrategy.KeepsPinned Trusted) (hr : r.cache.Sheltered Trusted)
    (hl : r.Linked) (hslots : r.store.entries.slots.length < UInt32.size) {content : Packet}
    {hd : Handle} {m : Relay σ κ} (hadded : r.addToCache content = (.ok hd, m)) :
    (r.addContent content).2.store.get? hd = some (r.newEntry content) := by
  have hacts := r.addToCache_acts content
  rw [hadded] at hacts
  have hsame : ∀ c, m.credited content c = r.credited content c := by
    intro c
    unfold credited replies askers ownRequests satisfies
    rw [hacts.pending, hacts.digest]
  have hserved := get?_servePending (hl.of_keeps hacts.toKeepsFaces)
    (get?_addToCache hκ hr hslots hadded)
  rw [hsame] at hserved
  unfold addContent
  rw [hadded]
  exact hserved

end Relay

namespace Operation

variable {σ κ : Type} [Scheduler σ] [CacheStrategy κ] {Trusted : κ → Prop} {r : Relay σ κ}

/-- Content that an operation serves from an entry or puts in one is pinned there, if the relay's
own application asked for it. -/
lemma kept_is_pinned (hκ : CacheStrategy.KeepsPinned Trusted) (hr : r.cache.Sheltered Trusted)
    (hl : r.Linked) (hslots : r.store.entries.slots.length < UInt32.size)
    {op : Operation σ κ} {hd : Handle} {content : Packet} (hkept : op.keptAt? r = some hd)
    (hserved : op.served? r = some content) (hown : 0 < r.ownRequests content) :
    ∃ c, (op.run r).store.get? hd = some c ∧ c.packet = content ∧ c.flags.isStatic = true := by
  cases op with
  | handleContent id arriving =>
    obtain ⟨c, hget, hpacket⟩ := Relay.get?_handleContent hκ hr hl hslots hserved hkept
    exact ⟨_, hget, hpacket, Relay.isStatic_credited hown c⟩
  | addContent added =>
    rcases hadded : r.addToCache added with ⟨_ | h, m⟩
    · simp [keptAt?, hadded] at hkept
    · have hcopy := Relay.get?_addToCache hκ hr hslots hadded
      obtain rfl : h = hd := by simpa [keptAt?, hadded] using hkept
      obtain rfl : added = content := by simpa [served?, hadded, hcopy] using hserved
      exact ⟨_, Relay.get?_addContent hκ hr hl hslots hadded, rfl,
        Relay.isStatic_credited hown _⟩
  | servePending h =>
    cases hkept
    obtain ⟨copy, hcopy, rfl⟩ := Option.map_eq_some_iff.mp hserved
    exact ⟨_, Relay.get?_servePending hl hcopy, rfl, Relay.isStatic_credited hown copy⟩
  | _ => cases hkept

/-- The cached entry that answers the relay's own interest is pinned. -/
lemma hit_is_pinned (hslots : r.store.entries.slots.length < UInt32.size) {interest : Packet}
    (hkind : interest.isInterest = true) {hd : Handle} (hhit : r.hitAt? interest = some hd) :
    ∃ c c', r.store.get? hd = some c ∧
      ((expressInterest interest).run r).store.get? hd = some c' ∧
      c'.packet = c.packet ∧ c'.flags.isStatic = true := by
  unfold Relay.hitAt? at hhit
  split at hhit
  · cases hhit
  · rename_i hunseen
    obtain ⟨c, hfound, -⟩ := SlotTable.get?_of_find? (Nat.le_of_lt hslots) hhit
    have hget : r.store.get? hd = some c := hfound
    let m := (r.checkNonce interest).2
    have hstore : (m.answerOwn hd).store =
        r.store.modify hd fun c => ((c.recordServed 1).touch m.clock).pinIf true := by
      rw [show r.store = m.store from (r.store_checkNonce interest).symm]
      exact congrArg Cache.store (m.cache_answerOwn hd)
    have hrun : (expressInterest interest).run r = m.answerOwn hd := by
      change (r.expressInterest interest).2 = m.answerOwn hd
      rw [r.expressInterest_eq hkind]
      dsimp only
      rw [if_neg hunseen, hhit]
    refine ⟨c, ((c.recordServed 1).touch m.clock).pinIf true, hget, ?_, rfl, ?_⟩
    · rw [hrun, hstore, ContentStore.get?_modify_self, hget]
      rfl
    · rw [CachedContent.isStatic_pinIf, Bool.or_true]

end Operation

namespace CachePolicy

/-- The policy removes nothing, whatever else it says. -/
def RemovesNothing (p : CachePolicy) : Prop :=
  p.removal = .nothing

lemma entries_makeRoom {p : CachePolicy} (hp : p.RemovesNothing) (s : ContentStore)
    (incoming : Packet) : (CacheStrategy.makeRoom p s incoming).2.1 = s.entries := by
  change (selected p.removal _).foldl _ s.entries = s.entries
  rw [hp]
  rfl

lemma keepsPinned : CacheStrategy.KeepsPinned RemovesNothing where
  pins k hk s incoming := by
    rw [entries_makeRoom hk]
    exact .refl s
  handles k hk s incoming hslots := by
    rwa [entries_makeRoom hk]
  asked _ hk _ _ := hk
  admitting _ hk _ _ := hk

end CachePolicy

namespace Sample

/-- The application asked for content that fills the store. -/
def pinned : Relay Allowance CachePolicy :=
  Operation.runAll [.addToCache (content 1), .expressInterest (interest none)] narrow

lemma reachableBy_pinned : ReachableBy (Trusting CachePolicy.RemovesNothing) pinned := by
  have hnew : ReachableBy (Trusting CachePolicy.RemovesNothing) narrow :=
    .create { config with maxCacheEntries := 1 } ⟨0⟩ digest rfl
  have hstored := hnew.run (.addToCache (content 1)) ⟨by decide, by rintro _ ⟨⟩⟩
  exact hstored.run (.expressInterest (interest none)) ⟨by decide, by rintro _ ⟨⟩⟩

/-- The application waits for content. -/
def wanting : Relay Allowance CachePolicy :=
  (Operation.expressInterest (interest none)).run created

lemma reachableBy_wanting : ReachableBy (Trusting CachePolicy.RemovesNothing) wanting :=
  (ReachableBy.create config ⟨0⟩ digest rfl : ReachableBy _ created).run
    (.expressInterest (interest none)) ⟨by decide, by rintro _ ⟨⟩⟩

end Sample

end NamedRelay
