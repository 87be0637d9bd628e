import NamedRelay.Proofs.Propagation

/-!
# The forwarding table as a keyed table

The names of the routes are the keys of the table. An operation changes one route in place, adds
one behind the others, or takes routes away. So no key is there twice, and the keys stand in the
order in which they came in, each counted from the last time it was not there.
-/

namespace NamedRelay

namespace Route

/-- The route leads to a face or shows interests to an observer. -/
def IsUsed (route : Route) : Prop :=
  route.face.isSome ∨ route.tap.isSome

/-- The route agrees with every filter given. -/
def Agrees (route : Route) (name : Option Name) (face : Option FaceId) : Prop :=
  (∀ n ∈ name, route.name = n) ∧ ∀ f ∈ face, route.face = some f

lemma selects_iff (route : Route) (name : Option Name) (face : Option FaceId) :
    ForwardingTable.selects name face route = true ↔ route.Agrees name face := by
  unfold ForwardingTable.selects Agrees
  rw [Bool.and_eq_true, Option.all_eq_true, Option.all_eq_true]
  simp only [Name.isSame_iff, beq_iff_eq, Option.mem_def]

end Route

/-- What is done to a forwarding table. -/
inductive TableOperation where
  | add (name : Name) (face : FaceId)
  | addTap (name : Name) (tap : String)
  | remove (name : Option Name) (face : Option FaceId)
  | removeFace (face : FaceId)

namespace TableOperation

/-- The name that an operation adds, unless it is there. -/
def adds? : TableOperation → Option Name
  | add name _ => some name
  | addTap name _ => some name
  | _ => none

/-- The table an operation leaves. A removal that fails leaves it as it is. -/
def run : TableOperation → ForwardingTable → ForwardingTable
  | add name face, t => (t.add name face).2
  | addTap name tap, t => t.addTap name tap
  | remove name face, t =>
    match t.remove name face with
    | .ok left => left
    | .error _ => t
  | removeFace face, t => t.removeFace face

/-- The table that operations leave one after the other. -/
def runAll (ops : List TableOperation) (t : ForwardingTable) : ForwardingTable :=
  ops.foldl (fun t op => op.run t) t

lemma runAll_append_singleton (ops : List TableOperation) (op : TableOperation)
    (t : ForwardingTable) : runAll (ops ++ [op]) t = op.run (runAll ops t) := by
  unfold runAll
  rw [List.foldl_append]
  rfl

end TableOperation

namespace ForwardingTable

def keys (t : ForwardingTable) : List Name :=
  t.routes.map Route.name

lemma hasRoute_iff (t : ForwardingTable) (name : Name) :
    t.hasRoute name = true ↔ name ∈ t.keys := by
  unfold hasRoute keys
  simp only [List.any_eq_true, Name.isSame_iff, List.mem_map]

/-! ## One operation -/

lemma modify_findIdx_of_split {α : Type} {p : α → Bool} {before after : List α} {a : α}
    (hbefore : ∀ b ∈ before, p b = false) (ha : p a = true) (change : α → α) :
    (before ++ a :: after).modify ((before ++ a :: after).findIdx p) change =
      before ++ change a :: after := by
  induction before with
  | nil =>
    rw [List.nil_append, List.findIdx_cons, ha]
    rfl
  | cons b before ih =>
    have hrest := ih fun b' hb' => hbefore b' (List.mem_cons_of_mem _ hb')
    rw [List.cons_append, List.findIdx_cons, hbefore b List.mem_cons_self]
    exact congrArg (List.cons b) hrest

/-- The first route of a name is the one that is changed. -/
lemma modify_of_split {t : ForwardingTable} {before after : List Route} {route : Route}
    (hsplit : t.routes = before ++ route :: after) (hbefore : route.name ∉ before.map Route.name)
    (change : Route → Route) : t.modify route.name change = ⟨before ++ change route :: after⟩ := by
  have hearlier : ∀ earlier ∈ before, earlier.name.isSame route.name = false := by
    intro earlier hearlier
    rw [← Bool.not_eq_true, Name.isSame_iff]
    exact fun hsame => hbefore (hsame ▸ List.mem_map_of_mem hearlier)
  have hself : route.name.isSame route.name = true := (Name.isSame_iff _ _).mpr rfl
  unfold modify
  rw [hsplit]
  exact congrArg mk (modify_findIdx_of_split (p := fun r : Route => r.name.isSame route.name)
    hearlier hself change)

lemma exists_split_of_mem_keys {t : ForwardingTable} {name : Name} (h : name ∈ t.keys) :
    ∃ before route after, t.routes = before ++ route :: after ∧ route.name = name ∧
      name ∉ before.map Route.name := by
  obtain ⟨first, rest, hkeys, hfirst⟩ := List.eq_append_cons_of_mem h
  obtain ⟨before, behind, hsplit, rfl, hbehind⟩ := List.map_eq_append_iff.mp hkeys
  obtain ⟨route, after, rfl, hname, -⟩ := List.map_eq_cons_iff.mp hbehind
  exact ⟨before, route, after, hsplit, hname, hfirst⟩

/-- In a table without doubles a route is the first one of its name. -/
lemma not_mem_of_split {t : ForwardingTable} {before after : List Route} {route : Route}
    (hkeys : t.keys.Nodup) (hsplit : t.routes = before ++ route :: after) :
    route.name ∉ before.map Route.name := by
  unfold keys at hkeys
  rw [hsplit, List.map_append, List.map_cons] at hkeys
  intro hthere
  exact (List.nodup_append.mp hkeys).2.2 _ hthere _ List.mem_cons_self rfl

section

variable {t : ForwardingTable} {before after : List Route} {route : Route}

lemma mem_keys_of_split (hsplit : t.routes = before ++ route :: after) : route.name ∈ t.keys := by
  unfold keys
  rw [hsplit]
  simp

lemma add_of_split (hsplit : t.routes = before ++ route :: after)
    (hbefore : route.name ∉ before.map Route.name) (face : FaceId) :
    t.add route.name face = (true, ⟨before ++ { route with face := some face } :: after⟩) := by
  unfold add
  rw [if_pos ((t.hasRoute_iff _).mpr (mem_keys_of_split hsplit)), modify_of_split hsplit hbefore]

lemma addTap_of_split (hsplit : t.routes = before ++ route :: after)
    (hbefore : route.name ∉ before.map Route.name) (tap : String) :
    t.addTap route.name tap = ⟨before ++ { route with tap := some tap } :: after⟩ := by
  unfold addTap
  rw [if_pos ((t.hasRoute_iff _).mpr (mem_keys_of_split hsplit)), modify_of_split hsplit hbefore]

end

lemma add_of_not_mem {t : ForwardingTable} {name : Name} (h : name ∉ t.keys) (face : FaceId) :
    t.add name face = (false, ⟨t.routes ++ [⟨name, some face, none⟩]⟩) := by
  unfold add
  rw [if_neg (mt (t.hasRoute_iff name).mp h)]

lemma addTap_of_not_mem {t : ForwardingTable} {name : Name} (h : name ∉ t.keys) (tap : String) :
    t.addTap name tap = ⟨t.routes ++ [⟨name, none, some tap⟩]⟩ := by
  unfold addTap
  rw [if_neg (mt (t.hasRoute_iff name).mp h)]

lemma any_selects_iff (t : ForwardingTable) (name : Option Name) (face : Option FaceId) :
    t.routes.any (selects name face) = true ↔ ∃ route ∈ t.routes, route.Agrees name face := by
  simp only [List.any_eq_true, Route.selects_iff]

lemma eraseP_of_split {α : Type} {p : α → Bool} {before after : List α} {a : α}
    (hbefore : ∀ b ∈ before, ¬p b) (ha : p a = true) :
    (before ++ a :: after).eraseP p = before ++ after := by
  rw [List.eraseP_append_right _ hbefore, List.eraseP_cons_of_pos ha]

/-- A removal takes the first route that agrees with the filters. -/
lemma remove_eq_ok_iff (t left : ForwardingTable) (name : Option Name) (face : Option FaceId) :
    t.remove name face = .ok left ↔
      ∃ before route after, t.routes = before ++ route :: after ∧ route.Agrees name face ∧
        (∀ earlier ∈ before, ¬earlier.Agrees name face) ∧ left.routes = before ++ after := by
  constructor
  · intro h
    unfold remove at h
    split at h
    · rename_i hany
      cases h
      obtain ⟨route, hmem, hagrees⟩ := (t.any_selects_iff name face).mp hany
      obtain ⟨first, before, after, hbefore, hfirst, hsplit, herased⟩ :=
        List.exists_of_eraseP hmem ((route.selects_iff name face).mpr hagrees)
      refine ⟨before, first, after, hsplit, (first.selects_iff name face).mp hfirst, ?_, herased⟩
      exact fun earlier hearlier hagrees =>
        hbefore earlier hearlier ((earlier.selects_iff name face).mpr hagrees)
    · cases h
  · rintro ⟨before, route, after, hsplit, hagrees, hbefore, hleft⟩
    have hany := (t.any_selects_iff name face).mpr ⟨route, by simp [hsplit], hagrees⟩
    have herased : t.routes.eraseP (selects name face) = before ++ after := by
      rw [hsplit]
      refine eraseP_of_split ?_ ((route.selects_iff name face).mpr hagrees)
      exact fun earlier hearlier => mt (earlier.selects_iff name face).mp (hbefore earlier hearlier)
    unfold remove
    rw [if_pos hany, herased, ← hleft]

lemma remove_eq_error_iff (t : ForwardingTable) (name : Option Name) (face : Option FaceId)
    (e : Error) : t.remove name face = .error e ↔
      e = .notFound .route ∧ ∀ route ∈ t.routes, ¬route.Agrees name face := by
  have hany := t.any_selects_iff name face
  unfold remove
  split
  · rename_i hsome
    refine iff_of_false nofun ?_
    rintro ⟨-, hnone⟩
    obtain ⟨route, hmem, hagrees⟩ := hany.mp hsome
    exact hnone route hmem hagrees
  · rename_i hnone
    rw [hany, not_exists] at hnone
    constructor
    · rintro ⟨⟩
      exact ⟨rfl, fun route hmem hagrees => hnone route ⟨hmem, hagrees⟩⟩
    · rintro ⟨rfl, -⟩
      rfl

/-- Everything an operation can do. -/
inductive Changes (t : ForwardingTable) (op : TableOperation) : ForwardingTable → Prop where
  | update {before after : List Route} {route changed : Route} :
      t.routes = before ++ route :: after → changed.name = route.name → changed.IsUsed →
      t.Changes op ⟨before ++ changed :: after⟩
  | append {route : Route} : route.name ∉ t.keys → op.adds? = some route.name → route.IsUsed →
      t.Changes op ⟨t.routes ++ [route]⟩
  | shrink {routes : List Route} : routes.Sublist t.routes → t.Changes op ⟨routes⟩

lemma changes_run (t : ForwardingTable) (op : TableOperation) : t.Changes op (op.run t) := by
  cases op with
  | add name face =>
    change t.Changes _ (t.add name face).2
    by_cases hname : name ∈ t.keys
    · obtain ⟨before, route, after, hsplit, rfl, hbefore⟩ := exists_split_of_mem_keys hname
      rw [add_of_split hsplit hbefore]
      exact .update hsplit rfl (.inl rfl)
    · rw [add_of_not_mem hname]
      exact .append hname rfl (.inl rfl)
  | addTap name tap =>
    change t.Changes _ (t.addTap name tap)
    by_cases hname : name ∈ t.keys
    · obtain ⟨before, route, after, hsplit, rfl, hbefore⟩ := exists_split_of_mem_keys hname
      rw [addTap_of_split hsplit hbefore]
      exact .update hsplit rfl (.inr rfl)
    · rw [addTap_of_not_mem hname]
      exact .append hname rfl (.inr rfl)
  | remove name face =>
    unfold TableOperation.run
    dsimp only
    split
    · rename_i left hremoved
      obtain ⟨before, route, after, hsplit, -, -, hleft⟩ :=
        (t.remove_eq_ok_iff left name face).mp hremoved
      have hsublist : left.routes.Sublist t.routes := by
        rw [hleft, hsplit]
        exact (List.sublist_cons_self route after).append_left before
      exact .shrink hsublist
    · exact .shrink (List.Sublist.refl _)
  | removeFace face => exact .shrink List.filter_sublist

end ForwardingTable

/-! ## A run of operations -/

namespace TableOperation

/-- The keys of the table that the first `count` operations lead to from an empty one. -/
def keysAfter (ops : List TableOperation) (count : Nat) : List Name :=
  (runAll (ops.take count) {}).keys

/-- The operation of this number adds the name, which is not there, and from then on it is. -/
structure AddedAt (ops : List TableOperation) (name : Name) (index : Nat) : Prop where
  added : ops[index]?.bind adds? = some name
  new : name ∉ keysAfter ops index
  stays : ∀ count ≤ ops.length, index < count → name ∈ keysAfter ops count

instance (ops : List TableOperation) (name : Name) (index : Nat) :
    Decidable (AddedAt ops name index) :=
  decidable_of_iff (ops[index]?.bind adds? = some name ∧ name ∉ keysAfter ops index ∧
      ∀ count ≤ ops.length, index < count → name ∈ keysAfter ops count)
    ⟨fun ⟨hadded, hnew, hstays⟩ => ⟨hadded, hnew, hstays⟩, fun h => ⟨h.added, h.new, h.stays⟩⟩

variable {ops : List TableOperation} {op : TableOperation} {name : Name} {i j : Nat}

lemma keysAfter_length (ops : List TableOperation) :
    keysAfter ops ops.length = (runAll ops {}).keys := by
  unfold keysAfter
  rw [List.take_length]

lemma keysAfter_append {count : Nat} (h : count ≤ ops.length) :
    keysAfter (ops ++ [op]) count = keysAfter ops count := by
  unfold keysAfter
  rw [List.take_append_of_le_length h]

namespace AddedAt

lemma lt_length (h : AddedAt ops name i) : i < ops.length := by
  obtain ⟨op, hop, -⟩ := Option.bind_eq_some_iff.mp h.added
  exact (List.getElem?_eq_some_iff.mp hop).1

lemma not_lt (hi : AddedAt ops name i) (hj : AddedAt ops name j) : ¬i < j :=
  fun hij => hj.new (hi.stays j (Nat.le_of_lt hj.lt_length) hij)

lemma unique (hi : AddedAt ops name i) (hj : AddedAt ops name j) : i = j :=
  Nat.le_antisymm (Nat.not_lt.mp (hj.not_lt hi)) (Nat.not_lt.mp (hi.not_lt hj))

/-- A name that is still there counts from where it did. -/
lemma append (h : AddedAt ops name i) (hthere : name ∈ (runAll (ops ++ [op]) {}).keys) :
    AddedAt (ops ++ [op]) name i where
  added := by
    rw [List.getElem?_append_left h.lt_length]
    exact h.added
  new := by
    rw [keysAfter_append (Nat.le_of_lt h.lt_length)]
    exact h.new
  stays count hlength hcount := by
    by_cases hlast : count ≤ ops.length
    · rw [keysAfter_append hlast]
      exact h.stays count hlast hcount
    · have hall : count = (ops ++ [op]).length := by
        rw [List.length_append, List.length_singleton] at hlength ⊢
        omega
      rw [hall, keysAfter_length]
      exact hthere

/-- A name that comes in counts from the last operation. -/
lemma of_new (hnew : name ∉ (runAll ops {}).keys) (hadds : op.adds? = some name)
    (hthere : name ∈ (runAll (ops ++ [op]) {}).keys) :
    AddedAt (ops ++ [op]) name ops.length where
  added := by
    rw [List.getElem?_append_right (Nat.le_refl _), Nat.sub_self]
    exact hadds
  new := by
    rw [keysAfter_append (Nat.le_refl _), keysAfter_length]
    exact hnew
  stays count hlength hcount := by
    have hall : count = (ops ++ [op]).length := by
      rw [List.length_append, List.length_singleton] at hlength ⊢
      omega
    rw [hall, keysAfter_length]
    exact hthere

end AddedAt

/-- The first name came in before the second one. -/
def CameBefore (ops : List TableOperation) (first second : Name) : Prop :=
  ∃ i j, AddedAt ops first i ∧ AddedAt ops second j ∧ i < j

lemma CameBefore.lt {first second : Name} (h : CameBefore ops first second)
    (hi : AddedAt ops first i) (hj : AddedAt ops second j) : i < j := by
  obtain ⟨i', j', hi', hj', hlt⟩ := h
  rw [hi.unique hi', hj.unique hj']
  exact hlt

/-- What every operation keeps: all routes are used, and their names stand in the order in which
they came in. -/
structure Ordered (ops : List TableOperation) (t : ForwardingTable) : Prop where
  used : ∀ route ∈ t.routes, route.IsUsed
  added : ∀ name ∈ t.keys, ∃ i, AddedAt ops name i
  inOrder : t.keys.Pairwise (CameBefore ops)

/-- Names that were there before are still in order if they are in the same order. -/
lemma Ordered.of_sublist {t t' : ForwardingTable} (h : Ordered ops t)
    (hrun : runAll (ops ++ [op]) {} = t') (hused : ∀ route ∈ t'.routes, route.IsUsed)
    (hkeys : t'.keys.Sublist t.keys) : Ordered (ops ++ [op]) t' where
  used := hused
  added name hname := by
    obtain ⟨i, hi⟩ := h.added name (hkeys.subset hname)
    exact ⟨i, hi.append (hrun ▸ hname)⟩
  inOrder := by
    refine (h.inOrder.sublist hkeys).imp_of_mem ?_
    rintro first second hfirst hsecond ⟨i, j, hi, hj, hij⟩
    exact ⟨i, j, hi.append (hrun ▸ hfirst), hj.append (hrun ▸ hsecond), hij⟩

/-- A name that comes in comes in last. -/
lemma Ordered.of_append {t : ForwardingTable} {route : Route} (h : Ordered ops t)
    (ht : runAll ops {} = t) (hrun : runAll (ops ++ [op]) {} = ⟨t.routes ++ [route]⟩)
    (hnew : route.name ∉ t.keys) (hadds : op.adds? = some route.name) (hused : route.IsUsed) :
    Ordered (ops ++ [op]) ⟨t.routes ++ [route]⟩ := by
  have hkeys : (runAll (ops ++ [op]) {}).keys = t.keys ++ [route.name] := by
    rw [hrun]
    exact List.map_append
  have hlast : AddedAt (ops ++ [op]) route.name ops.length :=
    .of_new (ht ▸ hnew) hadds (by simp [hkeys])
  have hold : ∀ name ∈ t.keys, ∀ i, AddedAt ops name i → AddedAt (ops ++ [op]) name i :=
    fun name hname i hi => hi.append (by simp [hkeys, hname])
  rw [hrun] at hkeys
  refine ⟨?_, ?_, ?_⟩
  · intro other hother
    rcases List.mem_append.mp hother with hother | hother
    · exact h.used other hother
    · rw [List.mem_singleton.mp hother]
      exact hused
  · intro name hname
    rw [hkeys] at hname
    rcases List.mem_append.mp hname with hname | hname
    · obtain ⟨i, hi⟩ := h.added name hname
      exact ⟨i, hold name hname i hi⟩
    · rw [List.mem_singleton.mp hname]
      exact ⟨ops.length, hlast⟩
  · rw [hkeys, List.pairwise_append]
    refine ⟨?_, List.pairwise_singleton _ _, ?_⟩
    · refine h.inOrder.imp_of_mem ?_
      rintro first second hfirst hsecond ⟨i, j, hi, hj, hij⟩
      exact ⟨i, j, hold first hfirst i hi, hold second hsecond j hj, hij⟩
    · intro first hfirst second hsecond
      obtain ⟨i, hi⟩ := h.added first hfirst
      rw [List.mem_singleton.mp hsecond]
      exact ⟨i, ops.length, hold first hfirst i hi, hlast, hi.lt_length⟩

lemma ordered_step {t : ForwardingTable} (h : Ordered ops t) (ht : runAll ops {} = t)
    (op : TableOperation) : Ordered (ops ++ [op]) (op.run t) := by
  have hrun : runAll (ops ++ [op]) {} = op.run t := by rw [runAll_append_singleton, ht]
  have hchanges := t.changes_run op
  generalize op.run t = t' at hrun hchanges
  cases hchanges with
  | @update before after route changed hsplit hname hused =>
    apply h.of_sublist hrun
    · intro other hother
      rcases List.mem_append.mp hother with hother | hother
      · exact h.used other (by simp [hsplit, hother])
      · rcases List.mem_cons.mp hother with rfl | hother
        · exact hused
        · exact h.used other (by simp [hsplit, hother])
    · simp [ForwardingTable.keys, hsplit, hname]
  | append hnew hadds hused => exact h.of_append ht hrun hnew hadds hused
  | shrink hsublist =>
    exact h.of_sublist hrun (fun route hroute => h.used route (hsublist.subset hroute))
      (hsublist.map _)

lemma ordered_runAll (ops : List TableOperation) : Ordered ops (runAll ops {}) := by
  -- The induction adds operations at the end, where they leave the places of the others alone.
  induction ops using List.reverseRecOn with
  | nil => exact ⟨nofun, nofun, .nil⟩
  | append_singleton ops op ih =>
    rw [runAll_append_singleton]
    exact ordered_step ih rfl op

lemma Ordered.keys_nodup {t : ForwardingTable} (h : Ordered ops t) : t.keys.Nodup := by
  refine h.inOrder.imp ?_
  rintro first second ⟨i, j, hi, hj, hij⟩ rfl
  exact hi.not_lt hj hij

end TableOperation

open TableOperation

/-- A keyed table in the order in which its keys came in. -/
structure KeyedInOrder (ops : List TableOperation) (t : ForwardingTable) : Prop where
  distinct : t.routes.Pairwise fun a b => ¬(a.name.suite = b.name.suite ∧
    a.name.components = b.name.components ∧ a.name.chunk = b.name.chunk)
  used : ∀ route ∈ t.routes, route.face.isSome ∨ route.tap.isSome
  added : ∀ route ∈ t.routes, ∃! i, AddedAt ops route.name i
  ordered : t.routes.Pairwise fun a b =>
    ∀ i j, AddedAt ops a.name i → AddedAt ops b.name j → i < j
  redirects : ∀ before route after, t.routes = before ++ route :: after → ∀ face,
    t.add route.name face = (true, ⟨before ++ { route with face := some face } :: after⟩)
  opens : ∀ name ∉ t.keys, ∀ face,
    t.add name face = (false, ⟨t.routes ++ [⟨name, some face, none⟩]⟩)
  watches : ∀ before route after, t.routes = before ++ route :: after → ∀ tap,
    t.addTap route.name tap = ⟨before ++ { route with tap := some tap } :: after⟩
  observes : ∀ name ∉ t.keys, ∀ tap, t.addTap name tap = ⟨t.routes ++ [⟨name, none, some tap⟩]⟩
  removes : ∀ name face left, t.remove name face = .ok left ↔
    ∃ before route after, t.routes = before ++ route :: after ∧ route.Agrees name face ∧
      (∀ earlier ∈ before, ¬earlier.Agrees name face) ∧ left.routes = before ++ after
  refuses : ∀ name face e, t.remove name face = .error e ↔
    e = .notFound .route ∧ ∀ route ∈ t.routes, ¬route.Agrees name face
  unharmed : ∀ name face, (∀ route ∈ t.routes, ¬route.Agrees name face) →
    (TableOperation.remove name face).run t = t
  covers : ∀ name, t.covering name = t.routes.filter fun route =>
    route.name.suite = name.suite ∧ route.name.components <+: name.components

/-- Whatever is done to a new forwarding table, it is a keyed table in insertion order. No two
routes have the same family, components and chunk number, and each leads to a face or has an
observer. The routes stand in the order in which their names came in since they were last taken
away. A face or an observer for a name that is there changes the one route and leaves the rest of
it. A removal takes the first route that agrees with the filters, or fails. The routes of a name
are those of its family whose components lead it, with any chunk number. -/
theorem routes_are_keyed_in_order (ops : List TableOperation) :
    KeyedInOrder ops (runAll ops {}) := by
  have hordered := ordered_runAll ops
  generalize runAll ops {} = t at hordered
  have hkeys := hordered.keys_nodup
  have hpairs := List.pairwise_map.mp hordered.inOrder
  refine ⟨?_, hordered.used, ?_, ?_, ?_, ?_, ?_, ?_, ?_, ?_, ?_, ?_⟩
  · refine (List.pairwise_map.mp hkeys).imp ?_
    exact fun hne hsame => hne ((Name.eq_iff _ _).mpr hsame)
  · intro route hroute
    obtain ⟨i, hi⟩ := hordered.added route.name (List.mem_map_of_mem hroute)
    exact ⟨i, hi, fun j hj => hj.unique hi⟩
  · exact hpairs.imp fun hbefore _ _ hi hj => CameBefore.lt hbefore hi hj
  · exact fun before route after hsplit face =>
      ForwardingTable.add_of_split hsplit (ForwardingTable.not_mem_of_split hkeys hsplit) face
  · exact fun name hname face => ForwardingTable.add_of_not_mem hname face
  · exact fun before route after hsplit tap =>
      ForwardingTable.addTap_of_split hsplit (ForwardingTable.not_mem_of_split hkeys hsplit) tap
  · exact fun name hname tap => ForwardingTable.addTap_of_not_mem hname tap
  · exact fun name face left => t.remove_eq_ok_iff left name face
  · exact t.remove_eq_error_iff
  · intro name face hnone
    unfold TableOperation.run
    dsimp only
    rw [(t.remove_eq_error_iff name face _).mpr ⟨rfl, hnone⟩]
  · intro name
    unfold ForwardingTable.covering
    apply List.filter_congr
    intro route _
    rw [Bool.eq_iff_iff, Route.covers_iff, decide_eq_true_iff]
    rfl

namespace Sample

/-- A name is added, taken away after another one has come in, and added again. -/
def tableChanges : List TableOperation :=
  [.add name ⟨1⟩, .addTap freshName "log", .add freshName ⟨2⟩, .remove (some name) none,
    .add name ⟨3⟩]

end Sample

/-- A name that was taken away and is added again counts as the last one. The observed name between
keeps its observer when it is led to a face. -/
theorem name_added_again_comes_last :
    (runAll Sample.tableChanges {}).routes =
        [⟨Sample.freshName, some ⟨2⟩, some "log"⟩, ⟨Sample.name, some ⟨3⟩, none⟩] ∧
      AddedAt Sample.tableChanges Sample.freshName 1 ∧ AddedAt Sample.tableChanges Sample.name 4 ∧
      (∀ i, AddedAt Sample.tableChanges Sample.name i → i = 4) ∧
      (runAll Sample.tableChanges {}).addTap Sample.name "trace" =
        ⟨[⟨Sample.freshName, some ⟨2⟩, some "log"⟩, ⟨Sample.name, some ⟨3⟩, some "trace"⟩]⟩ := by
  have hkeyed := routes_are_keyed_in_order Sample.tableChanges
  have hroutes : (runAll Sample.tableChanges {}).routes =
      [⟨Sample.freshName, some ⟨2⟩, some "log"⟩, ⟨Sample.name, some ⟨3⟩, none⟩] := by decide
  have hlast : AddedAt Sample.tableChanges Sample.name 4 := by decide
  have honce := hkeyed.added ⟨Sample.name, some ⟨3⟩, none⟩ (by simp [hroutes])
  have hwatched := hkeyed.watches [⟨Sample.freshName, some ⟨2⟩, some "log"⟩]
    ⟨Sample.name, some ⟨3⟩, none⟩ [] hroutes "trace"
  exact ⟨hroutes, by decide, hlast, fun i hi => honce.unique hi hlast, hwatched⟩

end NamedRelay
