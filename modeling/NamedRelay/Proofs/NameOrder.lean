import Mathlib.Data.List.Basic
import Mathlib.Data.List.TakeWhile
import Mathlib.Tactic.Common
import NamedRelay.Proofs.Request
import NamedRelay.Relay.Status

/-!
# The order of names

Names are totally ordered, and equal in that order only if they are the same. The components are
compared one by one before anything else, so a name comes before those that lie under it, and all
that lie under one name stand together, whatever bytes their components hold. Status lists the
routes in that order.
-/

namespace NamedRelay

/-! ## Lists compared element by element -/

section

variable {α : Type} [Ord α]

lemma strict_prefix_compare [Std.ReflOrd α] {xs ys : List α} (h : xs <+: ys) (hne : xs ≠ ys) :
    compare xs ys = .lt := by
  induction xs generalizing ys with
  | nil =>
    cases ys with
    | nil => exact absurd rfl hne
    | cons y ys => exact List.compare_nil_cons
  | cons x xs ih =>
    obtain ⟨rest, rfl⟩ := h
    have hrest : xs ≠ xs ++ rest := fun he => hne (congrArg (List.cons x) he)
    rw [List.cons_append, List.compare_cons_cons, Std.ReflOrd.compare_self,
      ih (List.prefix_append xs rest) hrest]
    rfl

/-- What both neighbours begin with, a list between them begins with. -/
lemma prefix_of_between [Std.TransOrd α] [Std.LawfulEqOrd α] {front xs ys zs : List α}
    (hx : front <+: xs) (hz : front <+: zs) (hxy : (compare xs ys).isLE)
    (hyz : (compare ys zs).isLE) : front <+: ys := by
  induction front generalizing xs ys zs with
  | nil => exact List.nil_prefix
  | cons a front ih =>
    obtain ⟨xs, rfl⟩ := hx
    obtain ⟨zs, rfl⟩ := hz
    cases ys with
    | nil => simp [List.compare_cons_nil] at hxy
    | cons b ys =>
      rw [List.cons_append, List.compare_cons_cons, Ordering.isLE_then_iff_and] at hxy hyz
      have hab : a = b := Std.LawfulEqCmp.eq_of_compare (Std.OrientedCmp.isLE_antisymm hxy.1 hyz.1)
      subst hab
      have hself : compare a a ≠ .lt := by simp
      rw [List.cons_prefix_cons]
      exact ⟨rfl, ih (List.prefix_append front xs) (List.prefix_append front zs)
        (hxy.2.resolve_left hself) (hyz.2.resolve_left hself)⟩

end

/-- If what lies between two elements that are picked out is picked out as well, these stand in one
block of a sorted list. -/
lemma exists_block {α : Type} {le : α → α → Prop} {p : α → Bool} {items : List α}
    (hsorted : items.Pairwise le)
    (hbetween : ∀ x y z, p x = true → p z = true → le x y → le y z → p y = true) :
    ∃ before block after, items = before ++ block ++ after ∧ (∀ a ∈ block, p a = true) ∧
      (∀ a ∈ before, p a = false) ∧ ∀ a ∈ after, p a = false := by
  induction items with
  | nil => exact ⟨[], [], [], rfl, nofun, nofun, nofun⟩
  | cons a items ih =>
    obtain ⟨hfirst, hrest⟩ := List.pairwise_cons.mp hsorted
    cases ha : p a with
    | false =>
      obtain ⟨before, block, after, rfl, hblock, hbefore, hafter⟩ := ih hrest
      exact ⟨a :: before, block, after, rfl, hblock,
        List.forall_mem_cons.mpr ⟨ha, hbefore⟩, hafter⟩
    | true =>
      -- The block begins here, and the first element that is not picked out ends it for good.
      have hsplit : items.takeWhile p ++ items.dropWhile p = items :=
        List.takeWhile_append_dropWhile
      refine ⟨[], a :: items.takeWhile p, items.dropWhile p, ?_, ?_, nofun, ?_⟩
      · rw [List.nil_append, List.cons_append, hsplit]
      · exact List.forall_mem_cons.mpr ⟨ha, fun b hb => List.mem_takeWhile_imp hb⟩
      · have hend := List.head?_dropWhile_not p items
        have hleft : (items.dropWhile p).Sublist items := List.dropWhile_sublist p
        generalize items.dropWhile p = left at hend hleft
        cases left with
        | nil => exact nofun
        | cons y left =>
          have hy : p y = false := hend
          refine List.forall_mem_cons.mpr ⟨hy, fun z hz => ?_⟩
          by_contra hpz
          have hay := hfirst y (hleft.subset List.mem_cons_self)
          have hyz := List.rel_of_pairwise_cons (hrest.sublist hleft) hz
          rw [hbetween a y z ha (by simpa using hpz) hay hyz] at hy
          cases hy

lemma Suite.label_injective {a b : Suite} (h : a.label = b.label) : a = b := by
  cases a <;> cases b <;> revert h <;> decide

namespace Name

instance : Std.TransCmp order :=
  inferInstanceAs (Std.TransCmp (compareLex (compareOn components)
    (compareLex (compareOn chunk) (compareOn fun n => n.suite.label))))

lemma order_swap (a b : Name) : order a b = (order b a).swap :=
  Std.OrientedCmp.eq_swap

lemma order_eq_iff (a b : Name) : order a b = .eq ↔
    a.suite = b.suite ∧ a.components = b.components ∧ a.chunk = b.chunk := by
  unfold order
  rw [Ordering.then_eq_eq, Ordering.then_eq_eq, Std.LawfulEqOrd.compare_eq_iff_eq,
    Std.LawfulEqOrd.compare_eq_iff_eq, Std.LawfulEqOrd.compare_eq_iff_eq]
  constructor
  · rintro ⟨hcomponents, hchunk, hlabel⟩
    exact ⟨Suite.label_injective hlabel, hcomponents, hchunk⟩
  · rintro ⟨hsuite, hcomponents, hchunk⟩
    exact ⟨hcomponents, hchunk, congrArg Suite.label hsuite⟩

instance : Std.LawfulEqCmp order where
  compare_self := Std.ReflCmp.compare_self
  eq_of_compare h := (eq_iff _ _).mpr ((order_eq_iff _ _).mp h)

lemma components_of_order {a b : Name} (h : (order a b).isLE) :
    (Ord.compare a.components b.components).isLE :=
  (Ordering.isLE_then_iff_and.mp h).1

/-- The second name has more components than the first, and begins with those of the first. -/
def IsAbove (a b : Name) : Prop :=
  a.components <+: b.components ∧ a.components ≠ b.components

lemma IsAbove.order_eq {a b : Name} (h : a.IsAbove b) : order a b = .lt := by
  unfold order
  rw [strict_prefix_compare h.1 h.2]
  rfl

lemma leads_of_between {front a b c : Name} (ha : front.leads a = true) (hc : front.leads c = true)
    (hab : (order a b).isLE) (hbc : (order b c).isLE) : front.leads b = true := by
  rw [leads_iff] at ha hc ⊢
  exact prefix_of_between ha hc (components_of_order hab) (components_of_order hbc)

section

variable {α : Type} {name : α → Name}

lemma sortBy_perm (items : List α) : (sortBy name items).Perm items :=
  List.mergeSort_perm items _

lemma pairwise_sortBy (items : List α) :
    (sortBy name items).Pairwise fun a b => (order (name a) (name b)).isLE := by
  apply List.pairwise_mergeSort
  · exact fun a b c hab hbc => Std.TransCmp.isLE_trans hab hbc
  · intro a b
    rw [order_swap (name b) (name a)]
    cases order (name a) (name b) <;> rfl

end

/-- A comparison is a total order of names in which each name comes before those that lie under it,
and in which nothing else comes between these. -/
structure Sorts (cmp : Name → Name → Ordering) : Prop where
  refl : ∀ a, cmp a a = .eq
  swap : ∀ a b, cmp a b = (cmp b a).swap
  antisymm : ∀ a b, (cmp a b).isLE → (cmp b a).isLE → a = b
  trans : ∀ a b c, (cmp a b).isLE → (cmp b c).isLE → (cmp a c).isLE
  total : ∀ a b, (cmp a b).isLE ∨ (cmp b a).isLE
  eq_iff : ∀ a b, cmp a b = .eq ↔
    a.suite = b.suite ∧ a.components = b.components ∧ a.chunk = b.chunk
  above : ∀ a b, a.IsAbove b → cmp a b = .lt
  block : ∀ (front : Name) (names : List Name), names.Pairwise (fun a b => (cmp a b).isLE) →
    ∃ before block after, names = before ++ block ++ after ∧
      (∀ n ∈ block, front.leads n = true) ∧ (∀ n ∈ before, front.leads n = false) ∧
      ∀ n ∈ after, front.leads n = false

lemma sorts_order : Sorts order where
  refl _ := Std.ReflCmp.compare_self
  swap := order_swap
  antisymm _ _ hab hba := Std.LawfulEqCmp.eq_of_compare (Std.OrientedCmp.isLE_antisymm hab hba)
  trans _ _ _ := Std.TransCmp.isLE_trans
  total a b := by
    rw [order_swap b a]
    cases order a b <;> simp
  eq_iff := order_eq_iff
  above _ _ h := h.order_eq
  block front _ hsorted := exists_block hsorted fun _ _ _ hx hz hxy hyz =>
    leads_of_between hx hz hxy hyz

end Name

/-- Names of all families are totally ordered, equal only to themselves. A name comes before the
names that lie under it, and these stand together in any sorted list. The routes that status shows
are those of the table, sorted, so each stands before the routes under it. -/
theorem names_come_before_those_under_them {σ κ : Type} (r : Relay σ κ) :
    Name.Sorts Name.order ∧
      ∃ routes : List Route, r.status.routes = routes.map Route.status ∧
        routes.Perm r.table.routes ∧
        routes.Pairwise (fun a b => (Name.order a.name b.name).isLE) ∧
        ∀ (i j : Nat) (a b : Route), routes[i]? = some a → routes[j]? = some b →
          a.name.IsAbove b.name → i < j := by
  have hsorted : r.table.sorted.Pairwise fun a b => (Name.order a.name b.name).isLE :=
    Name.pairwise_sortBy r.table.routes
  refine ⟨Name.sorts_order, r.table.sorted, rfl, Name.sortBy_perm r.table.routes, hsorted, ?_⟩
  intro i j a b hi hj habove
  have hlt := habove.order_eq
  by_contra hnot
  rcases Nat.lt_or_eq_of_le (Nat.le_of_not_lt hnot) with hji | rfl
  · obtain ⟨hib, rfl⟩ := List.getElem?_eq_some_iff.mp hi
    obtain ⟨hjb, rfl⟩ := List.getElem?_eq_some_iff.mp hj
    have hle := List.pairwise_iff_getElem.mp hsorted j i hjb hib hji
    rw [Name.order_swap, hlt] at hle
    cases hle
  · rw [hj] at hi
    obtain rfl := Option.some.inj hi
    exact habove.2 rfl

/-- Between the names `/a` and `/a/b` there is no room for `/a!`, though its text comes before that
of `/a/b`. -/
example :
    Name.order ⟨.ccnb, [[97], [98]], none, by decide, by decide⟩
        ⟨.ccnb, [[97, 33]], none, by decide, by decide⟩ = .lt ∧
      Ord.compare "/a!" "/a/b" = .lt := by
  decide

end NamedRelay
