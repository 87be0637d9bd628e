import Mathlib.Order.Bounds.Basic
import NamedRelay.Proofs.Operation
import NamedRelay.Proofs.Request

/-!
# Comparing names

A comparison counts the longest list of components that leads both names, the digest taken as the
last component of the first one where there is one. An exact comparison asks for the same components
and the same chunk number instead. A digest that a name has room for counts as if it were written
there.
-/

namespace NamedRelay

/-- No list that leads both is longer, and one of this length does. -/
def IsCommonLength (xs ys : List Bytes) (count : Nat) : Prop :=
  IsGreatest {length | ∃ common, common <+: xs ∧ common <+: ys ∧ common.length = length} count

lemma exists_common (xs ys : List Bytes) :
    ∃ common, common <+: xs ∧ common <+: ys ∧ common.length = leadingMatches xs ys := by
  induction xs generalizing ys with
  | nil => exact ⟨[], List.nil_prefix, List.nil_prefix, rfl⟩
  | cons x xs ih =>
    cases ys with
    | nil => exact ⟨[], List.nil_prefix, List.nil_prefix, rfl⟩
    | cons y ys =>
      unfold leadingMatches
      by_cases hxy : x = y
      · subst hxy
        obtain ⟨common, hxs, hys, hlength⟩ := ih ys
        refine ⟨x :: common, List.cons_prefix_cons.mpr ⟨rfl, hxs⟩,
          List.cons_prefix_cons.mpr ⟨rfl, hys⟩, ?_⟩
        rw [if_pos rfl, List.length_cons, hlength]
      · rw [if_neg hxy]
        exact ⟨[], List.nil_prefix, List.nil_prefix, rfl⟩

lemma length_le_leadingMatches {common xs ys : List Bytes} (hxs : common <+: xs)
    (hys : common <+: ys) : common.length ≤ leadingMatches xs ys := by
  induction common generalizing xs ys with
  | nil => exact Nat.zero_le _
  | cons c common ih =>
    obtain ⟨xs, rfl⟩ := hxs
    obtain ⟨ys, rfl⟩ := hys
    have hrest := ih (List.prefix_append common xs) (List.prefix_append common ys)
    simp only [List.cons_append, leadingMatches, if_true, List.length_cons]
    omega

lemma isCommonLength_leadingMatches (xs ys : List Bytes) :
    IsCommonLength xs ys (leadingMatches xs ys) := by
  refine ⟨exists_common xs ys, ?_⟩
  rintro _ ⟨common, hxs, hys, rfl⟩
  exact length_le_leadingMatches hxs hys

lemma IsCommonLength.le_min {xs ys : List Bytes} {count : Nat} (h : IsCommonLength xs ys count) :
    count ≤ min xs.length ys.length := by
  obtain ⟨⟨common, hxs, hys, rfl⟩, -⟩ := h
  exact Nat.le_min.mpr ⟨hxs.length_le, hys.length_le⟩

namespace Name

lemma compare_exact_eq (n target : Name) (digest : Option Digest) :
    n.compare digest target .exact =
      if n.withDigest digest = target.components ∧ n.chunk = target.chunk then 0 else -1 := by
  have hzero := n.compare_exact_eq_zero_iff target digest
  have htwo : n.compare digest target .exact = 0 ∨ n.compare digest target .exact = -1 := by
    unfold compare
    dsimp only
    split
    · exact .inr rfl
    · split
      · exact .inl rfl
      · exact .inr rfl
  split
  · rename_i hsame
    exact hzero.mpr hsame
  · rename_i hother
    exact htwo.resolve_left fun h => hother (hzero.mp h)

/-- What a comparison looks at. -/
lemma compare_congr {n m : Name} {digest digest' : Option Digest}
    (hcomponents : n.withDigest digest = m.withDigest digest') (hchunk : n.chunk = m.chunk)
    (target : Name) (mode : MatchMode) :
    n.compare digest target mode = m.compare digest' target mode := by
  unfold compare
  rw [hcomponents, hchunk]

lemma append_eq_ok {n longer : Name} {component : Bytes} (h : n.append component = .ok longer) :
    longer.components = n.components ++ [component] ∧ longer.chunk = n.chunk := by
  unfold append at h
  split at h
  · split at h
    · cases h
      exact ⟨rfl, rfl⟩
    · cases h
  · cases h

/-- A digest at the end of a name counts as one that is not written. -/
lemma withDigest_of_append {n longer : Name} {digest : Digest}
    (h : n.append digest.toList = .ok longer) :
    n.withDigest (some digest) = longer.withDigest none := by
  unfold withDigest
  rw [(append_eq_ok h).1]
  exact (List.append_nil _).symm

end Name

/-- What comparing two names comes to. All but the exact mode count the components in common from
the first one on, the digest included. An exact comparison gives 0 for the same components and
chunk number, and -1 otherwise. It makes no difference whether the digest stands at the end of the
name or not. A name leads those that begin with its components, and two names are equal if they
match exactly and are of one family. -/
theorem comparison_counts_common_components (n target : Name) :
    (∀ digest, ∃ count : Nat, IsCommonLength (n.withDigest digest) target.components count ∧
      count ≤ min (n.withDigest digest).length target.components.length ∧
      n.compare digest target .anywhere = count ∧ n.compare digest target .longest = count) ∧
    (∀ digest, n.compare digest target .exact =
      if n.withDigest digest = target.components ∧ n.chunk = target.chunk then 0 else -1) ∧
    (∀ digest longer, n.append digest.toList = .ok longer →
      ∀ mode, n.compare (some digest) target mode = longer.compare none target mode) ∧
    (n.leads target = true ↔ n.components <+: target.components) ∧
    (n = target ↔ n.suite = target.suite ∧ n.isExactMatch target = true) := by
  refine ⟨?_, n.compare_exact_eq target, ?_, n.leads_iff target, ?_⟩
  · intro digest
    have hcommon := isCommonLength_leadingMatches (n.withDigest digest) target.components
    exact ⟨_, hcommon, hcommon.le_min, rfl, rfl⟩
  · intro digest longer hlonger mode
    exact Name.compare_congr (Name.withDigest_of_append hlonger)
      (Name.append_eq_ok hlonger).2.symm target mode
  · rw [Name.isExactMatch_iff, Name.eq_iff]

/-- A digest that a name ends with, beside the same digest that is not written, and compared with the
name of another digest. -/
theorem written_digest_compares_alike :
    Sample.name.append (Sample.digest [5]).toList = .ok (Sample.interestByDigest 5).name ∧
      (∀ mode, Sample.name.compare (some (Sample.digest [5])) (Sample.interestByDigest 6).name mode =
        (Sample.interestByDigest 5).name.compare none (Sample.interestByDigest 6).name mode) ∧
      (Sample.interestByDigest 5).name.compare none (Sample.interestByDigest 6).name .longest = 1 ∧
      Sample.name.compare (some (Sample.digest [5])) (Sample.interestByDigest 5).name .exact = 0 := by
  have hlonger : Sample.name.append (Sample.digest [5]).toList =
      .ok (Sample.interestByDigest 5).name := rfl
  obtain ⟨-, -, hwritten, -⟩ :=
    comparison_counts_common_components Sample.name (Sample.interestByDigest 6).name
  exact ⟨hlonger, hwritten (Sample.digest [5]) _ hlonger, by decide, by decide⟩

end NamedRelay
