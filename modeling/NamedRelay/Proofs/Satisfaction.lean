import NamedRelay.Proofs.Request

/-!
# Answers in closed form

The bounds of an interest limit how many components a content has beyond the interest, with the
digest counted as one of them. A name has few components, so the limits are never cut off at the
largest word, and of all bounds only this is left: an interest for the name itself allows one more
component, and an interest for the name with its digest asks for no further one.
-/

namespace NamedRelay.Packet

lemma withinBounds_iff {wanted offered : Nat} (hwanted : wanted < UInt64.size)
    (hoffered : offered < UInt64.size - 1) (bounds : UInt64 × UInt64) :
    withinBounds wanted offered bounds = true ↔
      wanted + bounds.1.toNat ≤ offered ∧ offered ≤ wanted + bounds.2.toNat := by
  have hwanted' : (UInt64.ofNat wanted).toNat = wanted := UInt64.toNat_ofNat_of_lt' hwanted
  have hoffered' : (UInt64.ofNat offered).toNat = offered :=
    UInt64.toNat_ofNat_of_lt' (Nat.lt_of_lt_of_le hoffered (Nat.sub_le _ 1))
  unfold withinBounds
  rw [Bool.and_eq_true, decide_eq_true_iff, decide_eq_true_iff, UInt64.le_iff_toNat_le,
    UInt64.le_iff_toNat_le, toNat_addSaturating, toNat_addSaturating, hwanted', hoffered']
  omega

/-- Names are short, so the bounds of an interest are plain bounds. -/
lemma withinBounds_count_iff (interest content : Packet) (bounds : UInt64 × UInt64) :
    withinBounds interest.name.count (content.name.count + 1) bounds = true ↔
      interest.name.count + bounds.1.toNat ≤ content.name.count + 1 ∧
        content.name.count + 1 ≤ interest.name.count + bounds.2.toNat := by
  have hinterest : interest.name.count ≤ 64 := interest.name.count_le
  have hcontent : content.name.count ≤ 64 := content.name.count_le
  apply withinBounds_iff
  · rw [UInt64.size]
    omega
  · rw [UInt64.size]
    omega

lemma withinBounds_of_same {interest content : Packet}
    (hcount : interest.name.count = content.name.count) (bounds : UInt64 × UInt64) :
    withinBounds interest.name.count (content.name.count + 1) bounds = true ↔
      bounds.1 ≤ 1 ∧ 1 ≤ bounds.2 := by
  rw [withinBounds_count_iff, hcount, UInt64.le_iff_toNat_le, UInt64.le_iff_toNat_le,
    UInt64.toNat_one]
  omega

lemma withinBounds_of_next {interest content : Packet}
    (hcount : interest.name.count = content.name.count + 1) (bounds : UInt64 × UInt64) :
    withinBounds interest.name.count (content.name.count + 1) bounds = true ↔ bounds.1 = 0 := by
  rw [withinBounds_count_iff, hcount, ← UInt64.toNat_inj, UInt64.toNat_zero]
  omega

/-- The families with bounds are those whose names may end with a digest. -/
lemma suffixBounds?_eq_none_iff (p : Packet) :
    p.fields.suffixBounds? = none ↔ p.suite = .ccntlv := by
  unfold suite
  rw [← p.suite_eq]
  cases p.fields with
  | ccnb => simp [Fields.suffixBounds?, Fields.suite]
  | ccntlv => simp [Fields.suffixBounds?, Fields.suite]
  | ndntlv => simp [Fields.suffixBounds?, Fields.suite]

lemma digestCalls_le_one (interest content : Packet) : interest.digestCalls content ≤ 1 := by
  unfold digestCalls
  split
  · exact Nat.zero_le 1
  · exact Nat.le_refl 1

lemma digestCalls_eq_one_iff (interest content : Packet) :
    interest.digestCalls content = 1 ↔
      interest.suite = content.suite ∧ interest.name.count = content.name.count + 1 ∧
        ∃ bounds, interest.fields.suffixBounds? = some bounds ∧ bounds.1 = 0 := by
  unfold digestCalls verdict
  by_cases hsuite : interest.suite = content.suite
  · rw [if_neg (not_not.mpr hsuite)]
    cases hbounds : interest.fields.suffixBounds? with
    | none => simp
    | some bounds =>
      dsimp only
      by_cases hcount : interest.name.count = content.name.count + 1
      · have hwithin := withinBounds_of_next hcount bounds
        cases hroom : withinBounds interest.name.count (content.name.count + 1) bounds with
        | false =>
          rw [if_pos rfl]
          rw [hroom] at hwithin
          simpa [hsuite, hcount] using hwithin
        | true =>
          rw [if_neg (fun hfalse => Bool.noConfusion hfalse), if_pos hcount]
          simp [hsuite, hcount, hwithin.mp hroom]
      · rw [if_neg hcount]
        cases withinBounds interest.name.count (content.name.count + 1) bounds with
        | false => simp [hcount]
        | true => simp [hcount]
  · rw [if_pos hsuite]
    simp [hsuite]

/-- An answer that is settled without the digest does not hang on it. -/
lemma isSatisfiedBy_of_digestCalls {interest content : Packet}
    (h : interest.digestCalls content = 0) (digest other : Bytes → Digest) :
    interest.isSatisfiedBy content digest = interest.isSatisfiedBy content other := by
  unfold digestCalls at h
  unfold isSatisfiedBy
  cases hverdict : interest.verdict content with
  | settled answer => rfl
  | byDigest answer =>
    rw [hverdict] at h
    cases h

/-- What it takes to answer an interest. Family and chunk number agree, and either the components
do, with bounds that allow one more, or the family has bounds, of which the least is zero, and the
interest ends with the digest after the content's components. The digest is taken once at most, and
only for a content of the family that is one component short where the least bound is zero; else
the answer is the same for every digest. -/
theorem content_answers_by_name_or_digest (interest content : Packet) (digest : Bytes → Digest) :
    (interest.isSatisfiedBy content digest = true ↔
      interest.suite = content.suite ∧ interest.name.chunk = content.name.chunk ∧
        (interest.name.components = content.name.components ∧
            (∀ bounds, interest.fields.suffixBounds? = some bounds →
              bounds.1 ≤ 1 ∧ 1 ≤ bounds.2) ∨
          (∃ bounds, interest.fields.suffixBounds? = some bounds ∧ bounds.1 = 0) ∧
            interest.name.components =
              content.name.components ++ [(digest content.wire).toList])) ∧
    (interest.fields.suffixBounds? = none ↔ interest.suite = .ccntlv) ∧
    interest.digestCalls content ≤ 1 ∧
    (interest.digestCalls content = 1 ↔
      interest.suite = content.suite ∧ interest.name.count = content.name.count + 1 ∧
        ∃ bounds, interest.fields.suffixBounds? = some bounds ∧ bounds.1 = 0) ∧
    (interest.digestCalls content = 0 → ∀ other : Bytes → Digest,
      interest.isSatisfiedBy content digest = interest.isSatisfiedBy content other) := by
  refine ⟨?_, interest.suffixBounds?_eq_none_iff, interest.digestCalls_le_one content,
    interest.digestCalls_eq_one_iff content, fun h => isSatisfiedBy_of_digestCalls h digest⟩
  rw [isSatisfiedBy_iff]
  constructor
  · rintro ⟨hsuite, hwithin, hchunk, hsame | ⟨hsome, hnamed⟩⟩
    · have hcount : interest.name.count = content.name.count := congrArg List.length hsame.symm
      refine ⟨hsuite, hchunk.symm, .inl ⟨hsame.symm, ?_⟩⟩
      intro bounds hbounds
      exact (withinBounds_of_same hcount bounds).mp (hwithin bounds hbounds)
    · obtain ⟨bounds, hbounds⟩ := Option.isSome_iff_exists.mp hsome
      have hleast := (withinBounds_of_next hnamed.count_eq bounds).mp (hwithin bounds hbounds)
      exact ⟨hsuite, hchunk.symm, .inr ⟨⟨bounds, hbounds, hleast⟩, hnamed⟩⟩
  · rintro ⟨hsuite, hchunk, ⟨hsame, hallowed⟩ | ⟨⟨bounds, hbounds, hleast⟩, hnamed⟩⟩
    · have hcount : interest.name.count = content.name.count := congrArg List.length hsame
      refine ⟨hsuite, ?_, hchunk.symm, .inl hsame.symm⟩
      intro bounds hbounds
      exact (withinBounds_of_same hcount bounds).mpr (hallowed bounds hbounds)
    · have hnext : interest.NamesDigest content digest := hnamed
      refine ⟨hsuite, ?_, hchunk.symm, .inr ⟨by rw [hbounds]; rfl, hnext⟩⟩
      intro bounds' hbounds'
      obtain rfl : bounds = bounds' := Option.some.inj (hbounds.symm.trans hbounds')
      exact (withinBounds_of_next hnext.count_eq bounds).mpr hleast

end NamedRelay.Packet
