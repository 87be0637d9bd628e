import Mathlib.Data.List.Basic
import Mathlib.Tactic.Common
import NamedRelay.Packet.Satisfaction
import NamedRelay.Route

/-!
# Requests

What two interests have in common when they ask for the same: the family, the components, the chunk
number and the suffix bounds. Names match exactly if components and chunk number agree. Two contents
of one name answer the same interests, but for those that name the digest of one of them.
-/

namespace NamedRelay

/-- All of the first list's components agree if it leads the second. -/
lemma leadingMatches_eq_length_iff (xs ys : List Bytes) :
    leadingMatches xs ys = xs.length ↔ xs <+: ys := by
  induction xs generalizing ys with
  | nil => simp [leadingMatches]
  | cons x xs ih =>
    cases ys with
    | nil => simp [leadingMatches]
    | cons y ys =>
      simp only [leadingMatches, List.length_cons, List.cons_prefix_cons]
      by_cases hxy : x = y
      · simp [hxy, ih ys]
      · simp [hxy]

namespace Name

lemma compare_exact_eq_zero_iff (n target : Name) (digest : Option Digest) :
    n.compare digest target .exact = 0 ↔
      n.withDigest digest = target.components ∧ n.chunk = target.chunk := by
  unfold compare
  dsimp only
  split
  · rename_i h
    constructor
    · intro hc
      cases hc
    · rintro ⟨hcomponents, hchunk⟩
      rcases h with h | h
      · exact absurd (congrArg List.length hcomponents) h
      · exact absurd hchunk h
  · rename_i h
    obtain ⟨hlen, hchunk⟩ := not_or.mp h
    have hlen := not_not.mp hlen
    have hchunk := not_not.mp hchunk
    have hiff : leadingMatches (n.withDigest digest) target.components =
        (n.withDigest digest).length ↔ n.withDigest digest = target.components := by
      rw [leadingMatches_eq_length_iff]
      constructor
      · intro hp
        exact hp.eq_of_length hlen
      · intro he
        exact he ▸ List.prefix_rfl
    split
    · rename_i hm
      simp [hiff.mp hm, hchunk]
    · rename_i hm
      constructor
      · intro hc
        cases hc
      · intro he
        exact absurd (hiff.mpr he.1) hm

lemma isExactMatch_iff (n target : Name) :
    n.isExactMatch target = true ↔ n.components = target.components ∧ n.chunk = target.chunk := by
  unfold isExactMatch
  rw [beq_iff_eq, compare_exact_eq_zero_iff]
  simp [withDigest]

lemma leads_iff (n name : Name) : n.leads name = true ↔ n.components <+: name.components := by
  have hours : n.withDigest none = n.components := List.append_nil _
  unfold leads compare
  dsimp only
  rw [beq_iff_eq, Int.natCast_inj, hours, leadingMatches_eq_length_iff]

lemma eq_iff (n m : Name) :
    n = m ↔ n.suite = m.suite ∧ n.components = m.components ∧ n.chunk = m.chunk := by
  cases n
  cases m
  rw [mk.injEq]

lemma isSame_iff (n target : Name) : n.isSame target = true ↔ n = target := by
  unfold isSame
  rw [Bool.and_eq_true, beq_iff_eq, isExactMatch_iff, eq_iff]

end Name

/-- What an interest asks for. -/
structure Request where
  suite : Suite
  components : List Bytes
  chunk : Option UInt32
  bounds : Option (UInt64 × UInt64)
deriving DecidableEq

/-- Fields of one family agree if their bounds are equal. -/
lemma Fields.agree_iff {fields other : Fields} (hsuite : fields.suite = other.suite) :
    fields.agree other = true ↔ fields.suffixBounds? = other.suffixBounds? := by
  cases fields with
  | ccnb =>
    cases other with
    | ccnb => simp [agree, suffixBounds?]
    | ccntlv => cases hsuite
    | ndntlv => cases hsuite
  | ccntlv =>
    cases other with
    | ccnb => cases hsuite
    | ccntlv => simp [agree, suffixBounds?]
    | ndntlv => cases hsuite
  | ndntlv =>
    cases other with
    | ccnb => cases hsuite
    | ccntlv => cases hsuite
    | ndntlv => simp [agree, suffixBounds?]

namespace Packet

def request (p : Packet) : Request :=
  ⟨p.suite, p.name.components, p.name.chunk, p.fields.suffixBounds?⟩

/-- The fields of a packet are of the family of its name, so those of two families never meet. -/
lemma isSameInterest_eq (p other : Packet) :
    p.isSameInterest other = (p.suite == other.suite && p.name.isExactMatch other.name
      && p.fields.suffixBounds? == other.fields.suffixBounds?) := by
  unfold isSameInterest
  by_cases hsuite : p.suite = other.suite
  · have hfields : p.fields.suite = other.fields.suite :=
      p.suite_eq.trans (hsuite.trans other.suite_eq.symm)
    have hagree : p.fields.agree other.fields =
        (p.fields.suffixBounds? == other.fields.suffixBounds?) := by
      rw [Bool.eq_iff_iff, Fields.agree_iff hfields, beq_iff_eq]
    rw [hagree, hsuite]
    cases p.name.isExactMatch other.name <;> simp
  · simp [hsuite]

/-- Two interests are the same if they are one request. -/
lemma isSameInterest_iff (p other : Packet) :
    p.isSameInterest other = true ↔ p.request = other.request := by
  rw [isSameInterest_eq]
  unfold request
  simp [Name.isExactMatch_iff, and_assoc]

/-- The interest asks for the content by its digest. -/
def NamesDigest (interest content : Packet) (digest : Bytes → Digest) : Prop :=
  interest.name.components = content.name.withDigest (some (digest content.wire))

instance (interest content : Packet) (digest : Bytes → Digest) :
    Decidable (interest.NamesDigest content digest) :=
  inferInstanceAs (Decidable (_ = _))

/-- The digest is one more component. -/
lemma NamesDigest.count_eq {interest content : Packet} {digest : Bytes → Digest}
    (h : interest.NamesDigest content digest) :
    interest.name.count = content.name.count + 1 := by
  have hlength := congrArg List.length h
  simpa [Name.withDigest, Name.count] using hlength

lemma components_ne_of_count_eq {interest content : Packet}
    (h : interest.name.count = content.name.count + 1) :
    content.name.components ≠ interest.name.components := by
  intro heq
  have hlength := congrArg List.length heq
  unfold Name.count at h
  omega

/-- What it takes to answer an interest: the family, a number of components that the bounds allow,
the chunk number, and the components or, where there are bounds, the components with the digest. -/
lemma isSatisfiedBy_iff (interest content : Packet) (digest : Bytes → Digest) :
    interest.isSatisfiedBy content digest = true ↔
      interest.suite = content.suite ∧
      (∀ bounds, interest.fields.suffixBounds? = some bounds →
        withinBounds interest.name.count (content.name.count + 1) bounds = true) ∧
      content.name.chunk = interest.name.chunk ∧
      (content.name.components = interest.name.components ∨
        interest.fields.suffixBounds?.isSome ∧ interest.NamesDigest content digest) := by
  unfold isSatisfiedBy verdict
  by_cases hsuite : interest.suite = content.suite
  · rw [if_neg (not_not.mpr hsuite)]
    cases hbounds : interest.fields.suffixBounds? with
    | none =>
      rw [Name.isExactMatch_iff]
      simp [hsuite, and_comm]
    | some bounds =>
      dsimp only
      cases hwithin : withinBounds interest.name.count (content.name.count + 1) bounds with
      | false => simp [hwithin]
      | true =>
        rw [if_neg (fun hfalse => Bool.noConfusion hfalse)]
        by_cases hcount : interest.name.count = content.name.count + 1
        · rw [if_pos hcount]
          simp only [beq_iff_eq, Name.compare_exact_eq_zero_iff]
          constructor
          · rintro ⟨hnamed, hchunk⟩
            refine ⟨hsuite, ?_, hchunk, .inr ⟨rfl, hnamed.symm⟩⟩
            rintro _ ⟨⟩
            exact hwithin
          · rintro ⟨-, -, hchunk, hequal | ⟨-, hnamed⟩⟩
            · exact absurd hequal (components_ne_of_count_eq hcount)
            · exact ⟨hnamed.symm, hchunk⟩
        · rw [if_neg hcount]
          have hnot : ¬interest.NamesDigest content digest := fun hnamed => hcount hnamed.count_eq
          rw [Name.isExactMatch_iff]
          simp [hsuite, hwithin, hnot, and_comm]
  · rw [if_pos hsuite]
    simp [hsuite]

/-- Content answers interests for one request alike. -/
lemma isSatisfiedBy_congr {interest other : Packet} (h : interest.request = other.request)
    (content : Packet) (digest : Bytes → Digest) :
    interest.isSatisfiedBy content digest = other.isSatisfiedBy content digest := by
  obtain ⟨hsuite, hcomponents, hchunk, hbounds⟩ := Request.mk.inj h
  rw [Bool.eq_iff_iff, isSatisfiedBy_iff, isSatisfiedBy_iff]
  unfold NamesDigest Name.count
  rw [hsuite, hcomponents, hchunk, hbounds]

/-- Of two contents of one name, an interest that only the first answers names its digest. -/
lemma satisfied_by_one_iff {interest content copy : Packet} {digest : Bytes → Digest}
    (hname : copy.name.isSame content.name = true) :
    interest.isSatisfiedBy content digest = true ∧ interest.isSatisfiedBy copy digest = false ↔
      interest.isSatisfiedBy content digest = true ∧ interest.NamesDigest content digest ∧
        digest copy.wire ≠ digest content.wire := by
  obtain ⟨hsuite, hexact⟩ : copy.suite = content.suite ∧
      copy.name.isExactMatch content.name = true := by
    simpa [Name.isSame, suite] using hname
  obtain ⟨hcomponents, hchunk⟩ := (Name.isExactMatch_iff _ _).mp hexact
  have hcount : copy.name.count = content.name.count := congrArg List.length hcomponents
  rw [← Bool.not_eq_true, isSatisfiedBy_iff, isSatisfiedBy_iff, hsuite, hcomponents, hchunk, hcount]
  constructor
  · rintro ⟨⟨hs, hw, hc, hanswer⟩, hnot⟩
    refine ⟨⟨hs, hw, hc, hanswer⟩, ?_⟩
    rcases hanswer with hequal | ⟨hbounds, hnamed⟩
    · exact absurd ⟨hs, hw, hc, .inl hequal⟩ hnot
    · refine ⟨hnamed, ?_⟩
      intro hdigest
      apply hnot
      refine ⟨hs, hw, hc, .inr ⟨hbounds, ?_⟩⟩
      unfold NamesDigest Name.withDigest at hnamed ⊢
      rw [hdigest, hcomponents]
      exact hnamed
  · rintro ⟨hsat, hnamed, hdigest⟩
    refine ⟨hsat, ?_⟩
    rintro ⟨-, -, -, hequal | ⟨-, hnamed'⟩⟩
    · exact components_ne_of_count_eq hnamed.count_eq hequal
    · unfold NamesDigest Name.withDigest at hnamed hnamed'
      rw [hnamed, hcomponents] at hnamed'
      apply hdigest
      have hlists := List.append_cancel_left hnamed'
      exact Vector.toList_inj.mp (by simpa using hlists.symm)

end Packet

end NamedRelay
