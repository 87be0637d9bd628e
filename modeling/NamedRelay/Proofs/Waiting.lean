import NamedRelay.Proofs.PendingTable

/-!
# What becomes of a waiter

A face that waits on an entry waits on, or gets the content that satisfies the entry, or the entry
expires in a sweep, or the face itself is removed. No operation loses it on another way.
-/

namespace NamedRelay

namespace PendingInterest

/-- A face waits on the entry, or without a face the relay's own application. -/
def Wants (e : PendingInterest) : Option FaceId → Prop
  | some id => id ∈ e.waiting
  | none => e.isLocal = true

/-- The later entry is for the same packet, and whoever wanted the earlier one wants it. -/
structure Continues (e e' : PendingInterest) : Prop where
  packet : e'.packet = e.packet
  wants : ∀ who, e.Wants who → e'.Wants who

lemma Continues.refl (e : PendingInterest) : e.Continues e :=
  ⟨rfl, fun _ h => h⟩

lemma continues_addWaiter (e : PendingInterest) (id : FaceId) (now : Timestamp) :
    e.Continues (e.addWaiter id now) where
  packet := by rw [addWaiter_eq]
  wants who hw := by
    cases who with
    | some j => exact mem_waiting_addWaiter.mpr (.inl hw)
    | none =>
      rw [addWaiter_eq]
      exact hw

lemma continues_claimed (e : PendingInterest) :
    e.Continues { e with origin := .application } where
  packet := rfl
  wants who hw := by
    cases who with
    | some j => exact hw
    | none => rfl

/-- Whoever else wants an entry keeps it when a face is forgotten. -/
lemma wants_withoutFace {e : PendingInterest} {gone : FaceId} {who : Option FaceId}
    (hne : who ≠ some gone) (hw : e.Wants who) :
    (e.withoutFace gone).Wants who ∧ (e.withoutFace gone).isAbandoned = false := by
  cases who with
  | some id =>
    have hrest : id ∈ (e.withoutFace gone).waiting := by
      rw [waiting_withoutFace, List.mem_filter]
      exact ⟨hw, by simpa using hne⟩
    exact ⟨hrest, (isAbandoned_eq_false_iff _).mpr (.inl (List.ne_nil_of_mem hrest))⟩
  | none => exact ⟨hw, (isAbandoned_eq_false_iff _).mpr (.inr hw)⟩

end PendingInterest

namespace Relay

variable {σ κ : Type}

/-! ## Entries that stay -/

lemma Grows.continues {r : Relay σ κ} {t : PendingTable} (hg : r.Grows t) {e : PendingInterest}
    (he : e ∈ r.pending.toList) : ∃ e' ∈ t.toList, e.Continues e' := by
  cases hg with
  | kept => exact ⟨e, he, .refl e⟩
  | joined h _ =>
    rcases SlotTable.exists_mem_modify he h (fun e => e.addWaiter _ r.clock) with hm | hm
    · exact ⟨e, hm, .refl e⟩
    · exact ⟨_, hm, e.continues_addWaiter _ _⟩
  | claimed h =>
    rcases SlotTable.exists_mem_modify he h (fun e => { e with origin := .application }) with
      hm | hm
    · exact ⟨e, hm, .refl e⟩
    · exact ⟨_, hm, e.continues_claimed⟩
  | opened _ _ => exact ⟨e, SlotTable.mem_insert.mpr (.inl he), .refl e⟩
  | openedOwn _ => exact ⟨e, SlotTable.mem_insert.mpr (.inl he), .refl e⟩

lemma Records.continues {r r' : Relay σ κ} (h : r.Records r') {e : PendingInterest}
    (he : e ∈ r.pending.toList) : ∃ e' ∈ r'.pending.toList, e.Continues e' := by
  obtain ⟨m, t, handed, hm, hg, hk, -⟩ := h
  rw [hk.pending]
  exact hg.continues (hm.pending ▸ he)

/-- A pass keeps exactly the entries that the content does not satisfy. -/
lemma Serves.mem_pending_iff {r r' : Relay σ κ} {content : Packet} (h : r.Serves content r')
    (e : PendingInterest) :
    e ∈ r'.pending.toList ↔ e ∈ r.pending.toList ∧ r.satisfies content e = false := by
  obtain ⟨m, hm, hk, -⟩ := h
  rw [hk.pending, toList_withoutSatisfied, List.mem_filter, hm.pending]
  unfold satisfies
  rw [hm.digest, Bool.not_eq_true']

lemma Serves.isLive {r r' : Relay σ κ} {content : Packet} (h : r.Serves content r') {id : FaceId}
    (hlive : r.isLive id = true) : r'.isLive id = true := by
  obtain ⟨m, hm, hk, -⟩ := h
  exact hk.isLive (hm.isLive hlive)

/-- Whoever stays goes on waiting when a face is removed. -/
lemma withoutFace_wants {r : Relay σ κ} {gone : FaceId} {who : Option FaceId}
    (hne : who ≠ some gone) {e : PendingInterest} (he : e ∈ r.pending.toList)
    (hw : e.Wants who) :
    ∃ e' ∈ (r.withoutFace gone).pending.toList, e'.packet = e.packet ∧ e'.Wants who := by
  obtain ⟨hwants, hkept⟩ := PendingInterest.wants_withoutFace hne hw
  exact ⟨_, mem_pending_withoutFace.mpr ⟨e, he, rfl, hkept⟩, rfl, hwants⟩

/-! ## Removing several faces -/

lemma isLive_of_removeFaces {r : Relay σ κ} {ids : List FaceId} {id : FaceId}
    (h : (r.removeFaces ids).isLive id = true) : r.isLive id = true := by
  induction ids generalizing r with
  | nil => exact h
  | cons gone ids ih =>
    rw [removeFaces_cons] at h
    by_cases hlive : r.isLive gone = true
    · rw [removeFace_of_live hlive] at h
      exact ((isLive_withoutFace r gone id).mp (ih h)).1
    · rw [removeFace_of_not_live hlive] at h
      exact ih h

lemma removeFaces_wants {r : Relay σ κ} {ids : List FaceId} {who : Option FaceId}
    (hlive : ∀ id, who = some id → (r.removeFaces ids).isLive id = true) {e : PendingInterest}
    (he : e ∈ r.pending.toList) (hw : e.Wants who) :
    ∃ e' ∈ (r.removeFaces ids).pending.toList, e'.packet = e.packet ∧ e'.Wants who := by
  induction ids generalizing r e with
  | nil => exact ⟨e, he, rfl, hw⟩
  | cons gone ids ih =>
    rw [removeFaces_cons] at hlive ⊢
    by_cases hgone : r.isLive gone = true
    · rw [removeFace_of_live hgone] at hlive ⊢
      -- Who is there at the end is none of the faces that go.
      have hne : who ≠ some gone := by
        rintro rfl
        have hstays := isLive_of_removeFaces (hlive gone rfl)
        exact ((isLive_withoutFace r gone gone).mp hstays).2 rfl
      obtain ⟨e₁, he₁, hp₁, hw₁⟩ := withoutFace_wants hne he hw
      obtain ⟨e₂, he₂, hp₂, hw₂⟩ := ih hlive he₁ hw₁
      exact ⟨e₂, he₂, hp₂.trans hp₁, hw₂⟩
    · rw [removeFace_of_not_live hgone] at hlive ⊢
      exact ih hlive he hw

/-- No entry is new after removals. -/
lemma exists_of_mem_removeFaces {r : Relay σ κ} {ids : List FaceId} {e' : PendingInterest}
    (he' : e' ∈ (r.removeFaces ids).pending.toList) :
    ∃ e ∈ r.pending.toList, e'.packet = e.packet := by
  induction ids generalizing r with
  | nil => exact ⟨e', he', rfl⟩
  | cons gone ids ih =>
    rw [removeFaces_cons] at he'
    by_cases hgone : r.isLive gone = true
    · rw [removeFace_of_live hgone] at he'
      obtain ⟨e₁, he₁, hp₁⟩ := ih he'
      obtain ⟨e, he, rfl, -⟩ := mem_pending_withoutFace.mp he₁
      exact ⟨e, he, hp₁⟩
    · rw [removeFace_of_not_live hgone] at he'
      exact ih he'

/-! ## Sweeps -/

/-- A sweep keeps the entries that have not expired for everyone who stays. -/
lemma Ages.wants {r r' : Relay σ κ} (h : r.Ages r') {who : Option FaceId}
    (hlive : ∀ id, who = some id → r'.isLive id = true) {e : PendingInterest}
    (he : e ∈ r.pending.toList) (hw : e.Wants who) (hexpired : r.isExpired e = false) :
    ∃ e' ∈ r'.pending.toList, e'.packet = e.packet ∧ e'.Wants who := by
  obtain ⟨m, ids, handed, hm, rfl, -⟩ := h
  have haged : ({ e with retries := e.retries + 1 } : PendingInterest) ∈ m.pending.toList := by
    rw [hm.pending]
    exact mem_aged.mpr ⟨e, he, hexpired, rfl⟩
  have hwants : ({ e with retries := e.retries + 1 } : PendingInterest).Wants who := by
    cases who with
    | some _ => exact hw
    | none => exact hw
  exact removeFaces_wants hlive (e := { e with retries := e.retries + 1 }) haged hwants

/-- What a sweep leaves had not expired. -/
lemma Ages.exists_of_mem {r r' : Relay σ κ} (h : r.Ages r') {e' : PendingInterest}
    (he' : e' ∈ r'.pending.toList) :
    ∃ e ∈ r.pending.toList, r.isExpired e = false ∧ e'.packet = e.packet := by
  obtain ⟨m, ids, handed, hm, rfl, -⟩ := h
  obtain ⟨e₁, he₁, hp₁⟩ := exists_of_mem_removeFaces he'
  rw [hm.pending] at he₁
  obtain ⟨e, he, hexpired, rfl⟩ := mem_aged.mp he₁
  exact ⟨e, he, hexpired, hp₁⟩

/-! ## One operation -/

section

variable [CacheStrategy κ]

/-- Whoever wants an entry wants it still, or the entry is served, or it expires in a sweep, or the
face is gone. -/
lemma Effect.fate {r r' : Relay σ κ} {op : Operation σ κ} (h : r.Effect op r')
    {who : Option FaceId} (hlive : ∀ id, who = some id → r'.isLive id = true)
    {e : PendingInterest} (he : e ∈ r.pending.toList) (hw : e.Wants who) :
    (∃ e' ∈ r'.pending.toList, e'.packet = e.packet ∧ e'.Wants who) ∨
      (∃ content, op.served? r = some content ∧ r.satisfies content e = true) ∨
      op = .doAgeing ∧ r.isExpired e = true := by
  cases h with
  | takes ht =>
    generalize op.served? r = served at ht
    cases ht with
    | records hr =>
      obtain ⟨e', he', hc⟩ := hr.continues he
      exact .inl ⟨e', he', hc.packet, hc.wants who hw⟩
    | serves hs =>
      rename_i content
      cases hsat : r.satisfies content e with
      | true => exact .inr (.inl ⟨content, rfl, hsat⟩)
      | false => exact .inl ⟨e, (hs.mem_pending_iff e).mpr ⟨he, hsat⟩, rfl, hw⟩
  | settles _ hs =>
    rw [hs.1.pending]
    exact .inl ⟨e, he, rfl, hw⟩
  | removes hnone hgone =>
    rename_i gone
    refine .inl (withoutFace_wants ?_ he hw)
    rintro rfl
    exact ((isLive_withoutFace r gone gone).mp (hlive gone rfl)).2 rfl
  | ages hop ha =>
    cases hexpired : r.isExpired e with
    | true => exact .inr (.inr ⟨hop, rfl⟩)
    | false => exact .inl (ha.wants hlive he hw hexpired)

/-- An operation that serves content is a serving pass. -/
lemma Effect.serves {r r' : Relay σ κ} {op : Operation σ κ} (h : r.Effect op r')
    {content : Packet} (hs : op.served? r = some content) : r.Serves content r' := by
  cases h with
  | takes ht =>
    rw [hs] at ht
    cases ht with
    | serves hserves => exact hserves
  | settles hnone _ => cases hs.symm.trans hnone
  | removes hnone _ => cases hs.symm.trans hnone
  | ages hop _ =>
    subst hop
    cases hs

end

end Relay

/-! ## What becomes of a waiter -/

namespace Operation

variable {σ κ : Type} [Scheduler σ] [CacheStrategy κ]

/-- Afterwards there is an entry for the same request that the face, or without a face the relay's
own application, wants. -/
def Keeps (op : Operation σ κ) (r : Relay σ κ) (e : PendingInterest) (who : Option FaceId) : Prop :=
  ∃ e' ∈ (op.run r).pending.toList, e'.packet.isSameInterest e.packet = true ∧ e'.Wants who

/-- The operation serves content that satisfies the entry. -/
def Satisfies (op : Operation σ κ) (r : Relay σ κ) (e : PendingInterest) (content : Packet) : Prop :=
  op.served? r = some content ∧ r.satisfies content e = true

/-- All that the operation hands a face in reply is the content, once. The relay's own application
gets it once for each of its entries that the content satisfies. -/
def Hands (op : Operation σ κ) (r : Relay σ κ) (content : Packet) : Option FaceId → Prop
  | some id => ∃ f, r.faces.get? id = some f ∧
      (op.handings r).filter (fun h => h.repliesTo? == some id) = r.answerTo f content
  | none => (op.handings r).filter Handing.isOwn =
      if r.delivers then List.replicate
        (r.pending.toList.countP fun e => r.satisfies content e && e.isLocal)
        (.application none content)
      else []

/-- The entry is satisfied, and who waits on it is handed the content. -/
def Answers (op : Operation σ κ) (r : Relay σ κ) (e : PendingInterest) (who : Option FaceId) :
    Prop :=
  ∃ content, op.Satisfies r e content ∧ op.Hands r content who

/-- The operation is a sweep, and the entry has expired. -/
def Expires (op : Operation σ κ) (r : Relay σ κ) (e : PendingInterest) : Prop :=
  op = .doAgeing ∧ r.isExpired e = true

/-- The operation removes the face. The relay's own application is never removed. -/
def Removes (op : Operation σ κ) (r : Relay σ κ) (who : Option FaceId) : Prop :=
  ∃ id, who = some id ∧ r.isLive id = true ∧ (op.run r).isLive id = false

variable {r : Relay σ κ} {op : Operation σ κ} {e : PendingInterest} {who : Option FaceId}

lemma hands_face (hl : r.Linked) (he : e ∈ r.pending.toList) {id : FaceId} (hid : id ∈ e.waiting)
    {content : Packet} (hsat : op.Satisfies r e content) : op.Hands r content (some id) := by
  obtain ⟨f, hf⟩ := Option.isSome_iff_exists.mp (hl.waiting e he id hid)
  obtain ⟨m, hm, -, hh⟩ := (Relay.effect_run hl op).serves hsat.1
  obtain ⟨f', hf', hkey⟩ := hm.faces hf
  have hincludes : (m.recipients content).includes id = true := by
    rw [Relay.includes_recipients]
    refine ⟨⟨e, hm.pending ▸ he, ?_, ?_⟩, Relay.isLive_of_get? hf'⟩
    · unfold Relay.satisfies
      rw [hm.digest]
      exact hsat.2
    · simpa [PendingInterest.waiting] using hid
  have hanswer : m.answerTo f' content = r.answerTo f content := by
    unfold Relay.answerTo Face.isLocal
    rw [hm.delivers, Face.id_eq_of_key_eq hkey, Face.interface_eq_of_key_eq hkey]
  refine ⟨f, hf, ?_⟩
  unfold handings
  rw [hh.handings_eq, m.answers_to content hf', if_pos hincludes, hanswer]

lemma hands_application (hl : r.Linked) {content : Packet}
    (hserved : op.served? r = some content) : op.Hands r content none := by
  obtain ⟨m, hm, -, hh⟩ := (Relay.effect_run hl op).serves hserved
  have hsatisfies : m.satisfies content = r.satisfies content := by
    funext e'
    unfold Relay.satisfies
    rw [hm.digest]
  unfold Hands handings
  rw [hh.handings_eq, m.answers_own, hm.delivers, hm.pending, hsatisfies]

lemma answers_of_satisfies (hl : r.Linked) (he : e ∈ r.pending.toList) (hw : e.Wants who)
    {content : Packet} (hsat : op.Satisfies r e content) : op.Answers r e who := by
  cases who with
  | some id => exact ⟨content, hsat, hands_face hl he hw hsat⟩
  | none => exact ⟨content, hsat, hands_application hl hsat.1⟩

/-- Whoever wants an entry and stays keeps it, or is answered, or the entry expires. -/
lemma fate_of_stays (hl : r.Linked) (he : e ∈ r.pending.toList) (hw : e.Wants who)
    (hlive : ∀ id, who = some id → (op.run r).isLive id = true) :
    op.Keeps r e who ∨ op.Answers r e who ∨ op.Expires r e := by
  rcases (Relay.effect_run hl op).fate hlive he hw with
    ⟨e', he', hp, hw'⟩ | ⟨content, hsat⟩ | hexpires
  · exact .inl ⟨e', he', (Packet.isSameInterest_iff _ _).mpr (congrArg Packet.request hp), hw'⟩
  · exact .inr (.inl (answers_of_satisfies hl he hw hsat))
  · exact .inr (.inr hexpires)

/-- Who does not stay is a face, and it was live because it waits. -/
lemma fate (hl : r.Linked) (he : e ∈ r.pending.toList) (hw : e.Wants who) :
    op.Keeps r e who ∨ op.Answers r e who ∨ op.Expires r e ∨ op.Removes r who := by
  by_cases hlive : ∀ id, who = some id → (op.run r).isLive id = true
  · rcases fate_of_stays hl he hw hlive with hkeeps | hanswers | hexpires
    · exact .inl hkeeps
    · exact .inr (.inl hanswers)
    · exact .inr (.inr (.inl hexpires))
  · push Not at hlive
    obtain ⟨id, rfl, hgone⟩ := hlive
    exact .inr (.inr (.inr ⟨id, rfl, hl.waiting e he id hw, Bool.eq_false_iff.mpr hgone⟩))

lemma not_keeps_of_answers (hl : r.Linked) (hs : r.PendingSound) (he : e ∈ r.pending.toList)
    (hanswers : op.Answers r e who) : ¬op.Keeps r e who := by
  rintro ⟨e', he', hsame, -⟩
  obtain ⟨content, ⟨hserved, hsat⟩, -⟩ := hanswers
  obtain ⟨hmem, hunsat⟩ :=
    (((Relay.effect_run hl op).serves hserved).mem_pending_iff e').mp he'
  -- The pass leaves entries as they are, so what has the same request is the entry itself.
  have heq : e' = e := hs.eq_of_request hmem he ((Packet.isSameInterest_iff _ _).mp hsame)
  rw [heq, hsat] at hunsat
  cases hunsat

lemma not_keeps_of_expires (hl : r.Linked) (hs : r.PendingSound) (he : e ∈ r.pending.toList)
    (hexpires : op.Expires r e) : ¬op.Keeps r e who := by
  rintro ⟨e', he', hsame, -⟩
  obtain ⟨rfl, hexpired⟩ := hexpires
  obtain ⟨e₀, hmem, hkept, hp⟩ := (Relay.doAgeing_ages hl).exists_of_mem he'
  have hrequest : e₀.packet.request = e.packet.request := by
    rw [← hp]
    exact (Packet.isSameInterest_iff _ _).mp hsame
  have heq : e₀ = e := hs.eq_of_request hmem he hrequest
  rw [heq, hexpired] at hkept
  cases hkept

/-- A face that is removed waits nowhere. -/
lemma not_keeps_of_removes (hl : r.Linked) (hgone : op.Removes r who) : ¬op.Keeps r e who := by
  rintro ⟨e', he', -, hw⟩
  obtain ⟨id, rfl, -, hdead⟩ := hgone
  have hlinked : (op.run r).Linked := hl.effect (Relay.effect_run hl op)
  have hlive := hlinked.waiting e' he' id hw
  rw [hdead] at hlive
  cases hlive

lemma not_answers_of_expires (hexpires : op.Expires r e) : ¬op.Answers r e who := by
  rintro ⟨content, ⟨hserved, -⟩, -⟩
  obtain ⟨rfl, -⟩ := hexpires
  cases hserved

/-- Content is served without removing a face. -/
lemma not_answers_of_removes (hl : r.Linked) (hgone : op.Removes r who) :
    ¬op.Answers r e who := by
  rintro ⟨content, ⟨hserved, -⟩, -⟩
  obtain ⟨id, -, hlive, hdead⟩ := hgone
  have hstays := ((Relay.effect_run hl op).serves hserved).isLive hlive
  rw [hdead] at hstays
  cases hstays

end Operation

/-- No waiter is lost: in every reachable relay and for every operation, a face that waits on an
entry, and the relay's own application where it wants one, goes on waiting for the same request, or
is answered, or the entry expires in a sweep, or the face is removed. Only the last two may
coincide. -/
theorem waiters_are_kept_or_answered {σ κ : Type} [Scheduler σ] [CacheStrategy κ] {r : Relay σ κ}
    (h : Reachable r) (op : Operation σ κ) {e : PendingInterest} (he : e ∈ r.pending.toList)
    {who : Option FaceId} (hw : e.Wants who) :
    (op.Keeps r e who ∨ op.Answers r e who ∨ op.Expires r e ∨ op.Removes r who) ∧
      ¬(op.Keeps r e who ∧ op.Answers r e who) ∧
      ¬(op.Keeps r e who ∧ op.Expires r e) ∧
      ¬(op.Keeps r e who ∧ op.Removes r who) ∧
      ¬(op.Answers r e who ∧ op.Expires r e) ∧
      ¬(op.Answers r e who ∧ op.Removes r who) := by
  have hl := h.linked
  have hs := h.pendingSound
  refine ⟨Operation.fate hl he hw, ?_, ?_, ?_, ?_, ?_⟩
  · rintro ⟨hkeeps, hanswers⟩
    exact Operation.not_keeps_of_answers hl hs he hanswers hkeeps
  · rintro ⟨hkeeps, hexpires⟩
    exact Operation.not_keeps_of_expires hl hs he hexpires hkeeps
  · rintro ⟨hkeeps, hgone⟩
    exact Operation.not_keeps_of_removes hl hgone hkeeps
  · rintro ⟨hanswers, hexpires⟩
    exact Operation.not_answers_of_expires hexpires hanswers
  · rintro ⟨hanswers, hgone⟩
    exact Operation.not_answers_of_removes hl hgone hanswers

/-- Content answers a peer that waits for it, once. -/
theorem waiting_peer_is_answered :
    Sample.entry ∈ Sample.asked.pending.toList ∧ Sample.entry.Wants (some ⟨1⟩) ∧
      ((Operation.handleContent ⟨3⟩ (Sample.content 5)).handings Sample.asked).filter
        (fun h => h.repliesTo? == some ⟨1⟩) = [.face ⟨1⟩ .reply [5]] := by
  have he : Sample.entry ∈ Sample.asked.pending.toList := by decide
  have hid : ⟨1⟩ ∈ Sample.entry.waiting := by decide
  have hw : Sample.entry.Wants (some ⟨1⟩) := hid
  refine ⟨he, hw, ?_⟩
  obtain ⟨hkeeps | hanswers | ⟨hop, -⟩ | ⟨id, heq, -, hdead⟩, -⟩ :=
    waiters_are_kept_or_answered Sample.reachable_asked
      (.handleContent ⟨3⟩ (Sample.content 5)) he hw
  · obtain ⟨e', he', -⟩ := hkeeps
    have hnone : ((Operation.handleContent ⟨3⟩ (Sample.content 5)).run
      Sample.asked).pending.toList = [] := by decide
    rw [hnone] at he'
    cases he'
  · obtain ⟨content, ⟨hserved, -⟩, f, hf, hanswer⟩ := hanswers
    have hcontent : (Operation.handleContent ⟨3⟩ (Sample.content 5)).served? Sample.asked =
      some (Sample.content 5) := by decide
    have hnetwork : (Sample.asked.faces.get? ⟨1⟩).map Face.isLocal = some false := by decide
    have hlocal : f.isLocal = false := by simpa [hf] using hnetwork
    obtain rfl : Sample.content 5 = content := by simpa [hcontent] using hserved
    rw [hanswer]
    unfold Relay.answerTo
    rw [hlocal, FaceRegistry.id_of_get? hf]
    rfl
  · cases hop
  · obtain rfl : ⟨1⟩ = id := by simpa using heq
    have hlive : ((Operation.handleContent ⟨3⟩ (Sample.content 5)).run
      Sample.asked).isLive ⟨1⟩ = true := by decide
    rw [hlive] at hdead
    cases hdead

end NamedRelay
