import Mathlib.Data.List.Induction
import NamedRelay.Proofs.Capacity
import NamedRelay.Proofs.Sweep
import NamedRelay.Proofs.Waiting

/-!
# The life of a pending interest

From the operation that opens an entry to the one that ends it, the entry keeps its packet, its
lifetime and the time it was opened at, whoever joins it. Each sweep that it outlives sends it once
more and counts one retry, and there are no more of these than the configuration allows.
-/

namespace NamedRelay

namespace PendingInterest

/-- The later entry is the same one. Others may have joined it or given up, and it may have been
sent again. -/
structure Persists (e e' : PendingInterest) : Prop where
  packet : e'.packet = e.packet
  lifetime : e'.lifetime = e.lifetime
  lastUsed : e'.lastUsed = e.lastUsed

namespace Persists

lemma refl (e : PendingInterest) : e.Persists e :=
  ⟨rfl, rfl, rfl⟩

lemma trans {e e' e'' : PendingInterest} (h : e.Persists e') (h' : e'.Persists e'') :
    e.Persists e'' :=
  ⟨h'.packet.trans h.packet, h'.lifetime.trans h.lifetime, h'.lastUsed.trans h.lastUsed⟩

end Persists

lemma persists_addWaiter (e : PendingInterest) (id : FaceId) (now : Timestamp) :
    e.Persists (e.addWaiter id now) ∧ (e.addWaiter id now).retries = e.retries := by
  rw [addWaiter_eq]
  exact ⟨⟨rfl, rfl, rfl⟩, rfl⟩

end PendingInterest

namespace Relay

variable {σ κ : Type}

/-- The entry is a new one: no entry is for its request, and its time begins. -/
structure Opens (r : Relay σ κ) (e : PendingInterest) : Prop where
  fresh : ∀ e₀ ∈ r.pending.toList, e₀.packet.isSameInterest e.packet = false
  lifetime : e.lifetime = r.lifetimeOf e.packet
  lastUsed : e.lastUsed = r.clock
  retries : e.retries = 0

/-- The entry was there before, or it is a new one. -/
def Continues (r : Relay σ κ) (e' : PendingInterest) : Prop :=
  (∃ e ∈ r.pending.toList, e.Persists e' ∧ e'.retries = e.retries) ∨ r.Opens e'

/-! ## One operation -/

lemma Grows.origin {r : Relay σ κ} {t : PendingTable} (hg : r.Grows t) {e' : PendingInterest}
    (he' : e' ∈ t.toList) : r.Continues e' := by
  cases hg with
  | kept => exact .inl ⟨e', he', .refl e', rfl⟩
  | joined h _ =>
    rcases SlotTable.mem_modify he' with hold | ⟨e, he, rfl⟩
    · exact .inl ⟨e', hold, .refl e', rfl⟩
    · exact .inl ⟨e, he, e.persists_addWaiter _ _⟩
  | claimed h =>
    rcases SlotTable.mem_modify he' with hold | ⟨e, he, rfl⟩
    · exact .inl ⟨e', hold, .refl e', rfl⟩
    · exact .inl ⟨e, he, ⟨rfl, rfl, rfl⟩, rfl⟩
  | opened hnew _ =>
    rcases SlotTable.mem_insert.mp he' with hold | rfl
    · exact .inl ⟨e', hold, .refl e', rfl⟩
    · exact .inr ⟨(SlotTable.find?_eq_none _ _).mp hnew, rfl, rfl, rfl⟩
  | openedOwn hnew =>
    rcases SlotTable.mem_insert.mp he' with hold | rfl
    · exact .inl ⟨e', hold, .refl e', rfl⟩
    · exact .inr ⟨(SlotTable.find?_eq_none _ _).mp hnew, rfl, rfl, rfl⟩

lemma Continues.of_keeps {r m : Relay σ κ} (hk : r.KeepsFaces m) {e : PendingInterest}
    (h : m.Continues e) : r.Continues e := by
  rcases h with ⟨e₀, he₀, hsame⟩ | hopens
  · exact .inl ⟨e₀, hk.pending ▸ he₀, hsame⟩
  · refine .inr ⟨hk.pending ▸ hopens.fresh, ?_, hk.clock ▸ hopens.lastUsed, hopens.retries⟩
    have hlifetime : m.lifetimeOf e.packet = r.lifetimeOf e.packet := by
      unfold lifetimeOf
      rw [hk.config]
    exact hopens.lifetime.trans hlifetime

lemma Records.origin {r r' : Relay σ κ} (h : r.Records r') {e' : PendingInterest}
    (he' : e' ∈ r'.pending.toList) : r.Continues e' := by
  obtain ⟨m, t, handed, hm, hg, hk, -⟩ := h
  rw [hk.pending] at he'
  exact (hg.origin he').of_keeps hm

/-- Outside of sweeps the entries that stay keep their number of retries. -/
lemma Effect.origin [CacheStrategy κ] {r r' : Relay σ κ} {op : Operation σ κ} (h : r.Effect op r')
    (hop : op ≠ .doAgeing) {e' : PendingInterest} (he' : e' ∈ r'.pending.toList) :
    r.Continues e' := by
  cases h with
  | takes ht =>
    generalize op.served? r = served at ht
    cases ht with
    | records hr => exact hr.origin he'
    | serves hs =>
      have hold : e' ∈ r.pending.toList := ((Serves.mem_pending_iff hs e').mp he').1
      exact .inl ⟨e', hold, .refl e', rfl⟩
  | settles _ hs => exact .inl ⟨e', hs.1.pending ▸ he', .refl e', rfl⟩
  | removes _ _ =>
    obtain ⟨e, he, rfl, -⟩ := mem_pending_withoutFace.mp he'
    exact .inl ⟨e, he, ⟨rfl, rfl, rfl⟩, rfl⟩
  | ages hsweep _ => exact absurd hsweep hop

/-- What a sweep leaves was sent again, and counts that. -/
lemma Sweeps.origin [Scheduler σ] {r s : Relay σ κ} (h : r.Sweeps s) {e' : PendingInterest}
    (he' : e' ∈ s.pending.toList) :
    ∃ e ∈ r.resent, e.Persists e' ∧ e'.retries = e.retries + 1 := by
  rw [h.pending] at he'
  obtain ⟨e₁, he₁, rfl⟩ := List.mem_map.mp (List.mem_filter.mp he').1
  obtain ⟨e, he, rfl⟩ := List.mem_map.mp he₁
  exact ⟨e, he, ⟨rfl, rfl, rfl⟩, rfl⟩

lemma mem_resent {r : Relay σ κ} {e : PendingInterest} :
    e ∈ r.resent ↔ e ∈ r.pending.toList ∧ r.clock.ms < (e.lastUsed.adding e.lifetime).ms ∧
      e.retries < r.config.maxRetransmits := by
  unfold resent isExpired PendingInterest.isExpired Timestamp.hasElapsed
  simp [List.mem_filter]

/-- An entry that is not sent again goes. -/
lemma Sweeps.gone [Scheduler σ] {r s : Relay σ κ} (h : r.Sweeps s) (hs : r.PendingSound)
    {e : PendingInterest} (he : e ∈ r.pending.toList) (hdue : e ∉ r.resent) {e' : PendingInterest}
    (he' : e' ∈ s.pending.toList) : e'.packet.isSameInterest e.packet = false := by
  obtain ⟨e₁, he₁, hpersists, -⟩ := h.origin he'
  rw [Bool.eq_false_iff, ne_eq, Packet.isSameInterest_iff, hpersists.packet]
  intro hrequest
  obtain rfl := hs.eq_of_request (mem_resent.mp he₁).1 he hrequest
  exact hdue he₁

end Relay

/-! ## A whole life -/

namespace Operation

variable {σ κ : Type}

def isSweep : Operation σ κ → Bool
  | doAgeing => true
  | _ => false

lemma isSweep_iff (op : Operation σ κ) : op.isSweep = true ↔ op = .doAgeing := by
  cases op <;> simp [isSweep]

/-- How often the relay is swept. -/
def sweeps (ops : List (Operation σ κ)) : Nat :=
  ops.countP isSweep

lemma sweeps_append (ops : List (Operation σ κ)) (op : Operation σ κ) :
    sweeps (ops ++ [op]) = sweeps ops + if op.isSweep then 1 else 0 := by
  unfold sweeps
  rw [List.countP_append, List.countP_singleton]

lemma runAll_append [Scheduler σ] [CacheStrategy κ] (ops : List (Operation σ κ))
    (op : Operation σ κ) (r : Relay σ κ) : runAll (ops ++ [op]) r = op.run (runAll ops r) := by
  unfold runAll
  rw [List.foldl_append]
  rfl

end Operation

open Operation

namespace Relay

variable {σ κ : Type} [Scheduler σ] [CacheStrategy κ]

/-- The operation `op` opens an entry, which the operations after it leave as `e`. At each moment in
between, the entry is there with as many retries as there were sweeps, and each sweep sends it. -/
structure Lives (r : Relay σ κ) (before : List (Operation σ κ)) (op : Operation σ κ)
    (after : List (Operation σ κ)) (e : PendingInterest) : Prop where
  fresh : ∀ e₀ ∈ (runAll before r).pending.toList, e₀.packet.isSameInterest e.packet = false
  lifetime : e.lifetime = (runAll before r).lifetimeOf e.packet
  lastUsed : e.lastUsed = (runAll before r).clock
  retries : e.retries.toNat = sweeps after
  throughout : ∀ during rest, after = during ++ rest →
    ∃ e₁ ∈ (runAll (before ++ op :: during) r).pending.toList,
      e₁.Persists e ∧ e₁.retries.toNat = sweeps during
  sent : ∀ during rest, after = during ++ .doAgeing :: rest →
    ∃ e₁ ∈ (runAll (before ++ op :: during) r).resent, e₁.Persists e

namespace Lives

variable {r : Relay σ κ} {before after : List (Operation σ κ)} {op : Operation σ κ}
  {e : PendingInterest}

lemma of_opens (hopens : (runAll before r).Opens e)
    (he : e ∈ (runAll (before ++ [op]) r).pending.toList) : r.Lives before op [] e where
  fresh := hopens.fresh
  lifetime := hopens.lifetime
  lastUsed := hopens.lastUsed
  retries := by
    rw [hopens.retries]
    rfl
  throughout during rest hsplit := by
    obtain ⟨rfl, -⟩ := List.append_eq_nil_iff.mp hsplit.symm
    refine ⟨e, he, .refl e, ?_⟩
    rw [hopens.retries]
    rfl
  sent during rest hsplit := by
    obtain ⟨-, hrest⟩ := List.append_eq_nil_iff.mp hsplit.symm
    cases hrest

/-- One operation more. -/
lemma after_one (h : r.Lives before op after e) {next : Operation σ κ} {e' : PendingInterest}
    (he' : e' ∈ (runAll (before ++ op :: (after ++ [next])) r).pending.toList)
    (hpersists : e.Persists e') (hretries : e'.retries.toNat = sweeps (after ++ [next]))
    (hsent : next = .doAgeing → e ∈ (runAll (before ++ op :: after) r).resent) :
    r.Lives before op (after ++ [next]) e' where
  fresh := by
    rw [hpersists.packet]
    exact h.fresh
  lifetime := by
    rw [hpersists.lifetime, hpersists.packet]
    exact h.lifetime
  lastUsed := hpersists.lastUsed.trans h.lastUsed
  retries := hretries
  throughout during rest hsplit := by
    rcases List.eq_nil_or_concat rest with rfl | ⟨rest, last, rfl⟩
    · rw [List.append_nil] at hsplit
      subst hsplit
      exact ⟨e', he', .refl e', hretries⟩
    · rw [List.concat_eq_append, ← List.append_assoc] at hsplit
      obtain ⟨e₁, he₁, hp, hcount⟩ := h.throughout during rest (List.append_inj' hsplit rfl).1
      exact ⟨e₁, he₁, hp.trans hpersists, hcount⟩
  sent during rest hsplit := by
    rcases List.eq_nil_or_concat rest with rfl | ⟨rest, last, rfl⟩
    · obtain ⟨rfl, hnext⟩ := List.append_inj' hsplit rfl
      exact ⟨e, hsent (List.singleton_inj.mp hnext), hpersists⟩
    · rw [List.concat_eq_append, ← List.cons_append, ← List.append_assoc] at hsplit
      obtain ⟨e₁, he₁, hp⟩ := h.sent during rest (List.append_inj' hsplit rfl).1
      exact ⟨e₁, he₁, hp.trans hpersists⟩

end Lives

/-- Each entry was opened by one of the operations. -/
lemma exists_lives {r : Relay σ κ} (hr : Reachable r) (hnone : r.pending.toList = [])
    (ops : List (Operation σ κ)) {e : PendingInterest}
    (he : e ∈ (runAll ops r).pending.toList) :
    ∃ before op after, ops = before ++ op :: after ∧ r.Lives before op after e := by
  induction ops using List.reverseRecOn generalizing e with
  | nil =>
    change e ∈ r.pending.toList at he
    rw [hnone] at he
    cases he
  | append_singleton ops op ih =>
    have hreached := hr.runAll ops
    have hrun := runAll_append ops op r
    cases hop : op.isSweep with
    | true =>
      obtain rfl := op.isSweep_iff.mp hop
      have hsweeps := doAgeing_sweeps hreached.linked hreached.pendingSound hreached.numbered
      rw [hrun] at he
      obtain ⟨e₀, he₀, hpersists, hretries⟩ := hsweeps.origin he
      obtain ⟨before, first, after, rfl, hlives⟩ := ih (mem_resent.mp he₀).1
      have hcount : e.retries.toNat = sweeps (after ++ [.doAgeing]) := by
        -- The count is below the limit, so one more does not wrap.
        have hlt := UInt32.lt_iff_toNat_lt.mp (mem_resent.mp he₀).2.2
        have hmax := (runAll (before ++ first :: after) r).config.maxRetransmits.toNat_lt
        have hone : sweeps (after ++ [(.doAgeing : Operation σ κ)]) = sweeps after + 1 :=
          sweeps_append after .doAgeing
        rw [hlives.retries] at hlt
        rw [hone, hretries, UInt32.toNat_add, hlives.retries]
        simp only [UInt32.toNat_one]
        omega
      rw [← hrun] at he
      refine ⟨before, first, after ++ [.doAgeing], by simp, ?_⟩
      exact hlives.after_one (by simpa using he) hpersists hcount fun _ => he₀
    | false =>
      have hne : op ≠ .doAgeing := by
        rintro rfl
        cases hop
      rcases (effect_run hreached.linked op).origin hne (hrun ▸ he) with
        ⟨e₀, he₀, hpersists, hretries⟩ | hopens
      · obtain ⟨before, first, after, rfl, hlives⟩ := ih he₀
        have hcount : e.retries.toNat = sweeps (after ++ [op]) := by
          rw [sweeps_append, hop, hretries, hlives.retries]
          rfl
        refine ⟨before, first, after ++ [op], by simp, ?_⟩
        exact hlives.after_one (by simpa using he) hpersists hcount fun h => absurd h hne
      · exact ⟨ops, op, [], rfl, .of_opens hopens he⟩

lemma config_runAll {r : Relay σ κ} (hl : r.Linked) (ops : List (Operation σ κ)) :
    (runAll ops r).config = r.config := by
  induction ops generalizing r with
  | nil => rfl
  | cons op ops ih =>
    have heffect := effect_run hl op
    exact (ih (hl.effect heffect)).trans heffect.setup.1

end Relay

/-- The life of a pending interest is bounded. In any run of a new relay, an entry of the table was
opened by one of the operations. From there on its packet, its lifetime and the time it was opened at
stay as they are, and its retries are the sweeps since then, each of which has sent it. There are no
more of these than the configured number. The next sweep sends it once more exactly if its lifetime
is not over and fewer sweeps than that number have sent it, and otherwise leaves no entry for its
request. -/
theorem pending_interests_live_boundedly {σ κ : Type} [Scheduler σ] [CacheStrategy κ]
    {config : Config} {clock : Timestamp} {digest : Bytes → Digest} {r : Relay σ κ}
    (hnew : Relay.create config clock digest = .ok r) (ops : List (Operation σ κ))
    {e : PendingInterest} (he : e ∈ (runAll ops r).pending.toList) :
    ∃ before op after, ops = before ++ op :: after ∧ r.Lives before op after e ∧
      sweeps after ≤ config.maxRetransmits.toNat ∧
      (e ∈ (runAll ops r).resent ↔
        (runAll ops r).clock.ms < (e.lastUsed.adding e.lifetime).ms ∧
          sweeps after < config.maxRetransmits.toNat) ∧
      (e ∉ (runAll ops r).resent → ∀ e' ∈ (runAll ops r).doAgeing.pending.toList,
        e'.packet.isSameInterest e.packet = false) := by
  have hr : Reachable r := .create config clock digest hnew
  have hreached := hr.runAll ops
  have hinitial : r.config = config ∧ r.pending.toList = [] := by
    unfold Relay.create at hnew
    split at hnew
    · cases hnew
    · cases hnew
      exact ⟨rfl, rfl⟩
  have hconfig : (runAll ops r).config = config :=
    (Relay.config_runAll hr.linked ops).trans hinitial.1
  have hsound := hreached.pendingSound
  have hsweeps := Relay.doAgeing_sweeps hreached.linked hsound hreached.numbered
  obtain ⟨before, op, after, hsplit, hlives⟩ := Relay.exists_lives hr hinitial.2 ops he
  refine ⟨before, op, after, hsplit, hlives, ?_, ?_, ?_⟩
  · have hle := UInt32.le_iff_toNat_le.mp (hsound.entries e he).retries
    rwa [hlives.retries, hconfig] at hle
  · rw [Relay.mem_resent, hconfig, UInt32.lt_iff_toNat_lt, hlives.retries]
    exact and_iff_right he
  · intro hdue e' he'
    exact hsweeps.gone hsound he hdue he'

namespace Sample

/-- A peer asks for `x`, and another one a little later. There is a sweep after each. -/
def retries : List (Operation Allowance CachePolicy) :=
  [meets 2, meets 3, .handleInterest ⟨1⟩ (interest none), .doAgeing, .advance 4,
    .handleInterest ⟨2⟩ (interest none), .doAgeing]

/-- The entry that both peers wait on. -/
def retriedEntry : PendingInterest :=
  { (PendingInterest.fromFace (interest none) ⟨1⟩ config.interestTimeout ⟨0⟩).addWaiter ⟨2⟩ ⟨4⟩ with
    retries := 2 }

end Sample

/-- The entry dates from the first interest, and was sent by both sweeps. -/
theorem retried_interest_lives :
    Relay.create Sample.config ⟨0⟩ Sample.digest = .ok Sample.created ∧
      Sample.retriedEntry ∈ (runAll Sample.retries Sample.created).pending.toList ∧
      ∃ before op after, Sample.retries = before ++ op :: after ∧
        Sample.created.Lives before op after Sample.retriedEntry ∧
        sweeps after ≤ Sample.config.maxRetransmits.toNat := by
  have hnew : Relay.create Sample.config ⟨0⟩ Sample.digest = .ok Sample.created := rfl
  have he : Sample.retriedEntry ∈ (runAll Sample.retries Sample.created).pending.toList := by decide
  obtain ⟨before, op, after, hsplit, hlives, hbound, -⟩ :=
    pending_interests_live_boundedly hnew Sample.retries he
  exact ⟨hnew, he, before, op, after, hsplit, hlives, hbound⟩

end NamedRelay
