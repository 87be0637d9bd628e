import NamedRelay.Proofs.QueueSteps

/-!
# Conservation of packets

Along any run of operations an interface hands on what it accepted, and a face passes on what joined
it, in order, once and unaltered. What is refused is counted by the interface and by the relay.
-/

namespace NamedRelay

open Event

namespace Operation

variable {σ κ : Type} [Scheduler σ] [CacheStrategy κ]

/-- What operations one after the other add to a record. -/
def record {α : Type} (of : Operation σ κ → Relay σ κ → List α) :
    List (Operation σ κ) → Relay σ κ → List α
  | [], _ => []
  | op :: ops, r => of op r ++ record of ops (op.run r)

end Operation

namespace Relay

variable {σ κ : Type} [Scheduler σ] [CacheStrategy κ]

/-- What the records of a face say of its queue: all that has joined it has left it, waits on it or
was lost with it. -/
structure Carried (r : Relay σ κ) (id : FaceId) (joined left : List Bytes)
    (passed : List (Nat × TransmitRequest)) : Prop where
  queue : ∃ lost, left ++ (r.waits id ++ lost) = joined ∧ (r.isLive id = true → lost = [])
  inOrder : (passed.map fun x => x.2.packet).Sublist left
  place : ∃ place, (∀ f, r.faces.get? id = some f → f.place = place) ∧
    ∀ x ∈ passed, (some x.1, some x.2.destination) = place
  fresh : r.faces.latest < id.number → joined = []

/-- Nothing is added to the records of a face that is gone for good. -/
lemma Carries.of_retired {r : Relay σ κ} {op : Operation σ κ} {id : FaceId}
    (hc : r.Carries op id) (hretired : r.Retired id) :
    op.joins id r = [] ∧ op.leaves id r = [] ∧ op.reaches id r = [] := by
  obtain ⟨lost, hqueue, -⟩ := hc.queue
  have hjoins := (hc.retired hretired).2
  rw [waits_of_not_live hretired.1, hjoins, List.append_nil, List.append_eq_nil_iff] at hqueue
  have hleaves := hqueue.1
  rw [Operation.leaves, List.append_eq_nil_iff, List.map_eq_nil_iff] at hleaves
  exact ⟨hjoins, hqueue.1, hleaves.1⟩

namespace Carried

variable {r : Relay σ κ} {op : Operation σ κ} {id : FaceId} {joined left : List Bytes}
  {passed : List (Nat × TransmitRequest)}

lemma run_of_retired (h : r.Carried id joined left passed) (hc : r.Carries op id)
    (hretired : r.Retired id) : (op.run r).Carried id joined left passed where
  queue := by
    obtain ⟨lost, hqueue, -⟩ := h.queue
    have hgone := (hc.retired hretired).1
    rw [waits_of_not_live hretired.1] at hqueue
    refine ⟨lost, ?_, ?_⟩
    · rw [waits_of_not_live hgone]
      exact hqueue
    · intro hlive
      rw [hgone] at hlive
      cases hlive
  inOrder := h.inOrder
  place := by
    obtain ⟨place, -, hpassed⟩ := h.place
    refine ⟨place, ?_, hpassed⟩
    intro f hf
    have hgone := (hc.retired hretired).1
    rw [isLive_of_get? hf] at hgone
    cases hgone
  fresh hlt := h.fresh (UInt32.lt_of_le_of_lt hc.latest hlt)

omit [Scheduler σ] [CacheStrategy κ] in
/-- As long as a face is there, or is still to come, nothing is lost. -/
lemma nothing_lost (h : r.Carried id joined left passed) (hretired : ¬r.Retired id) :
    left ++ r.waits id = joined ∧ (r.isLive id = false → passed = []) := by
  obtain ⟨lost, hqueue, hlost⟩ := h.queue
  cases hlive : r.isLive id with
  | true =>
    rw [hlost hlive, List.append_nil] at hqueue
    refine ⟨hqueue, ?_⟩
    rintro ⟨⟩
  | false =>
    have hlt : r.faces.latest < id.number := UInt32.not_le.mp fun hle => hretired ⟨hlive, hle⟩
    have hjoined := h.fresh hlt
    rw [hjoined, List.append_eq_nil_iff, List.append_eq_nil_iff] at hqueue
    obtain ⟨hleft, hwaits, -⟩ := hqueue
    have hinOrder := h.inOrder
    rw [hleft, List.sublist_nil, List.map_eq_nil_iff] at hinOrder
    refine ⟨?_, fun _ => hinOrder⟩
    rw [hleft, hwaits, hjoined]
    rfl

lemma run_of_not_retired (h : r.Carried id joined left passed) (hc : r.Carries op id)
    (hretired : ¬r.Retired id) :
    (op.run r).Carried id (joined ++ op.joins id r) (left ++ op.leaves id r)
      (passed ++ op.reaches id r) where
  queue := by
    obtain ⟨lost, hqueue, hlost⟩ := hc.queue
    refine ⟨lost, ?_, hlost⟩
    rw [List.append_assoc, hqueue, ← List.append_assoc, (h.nothing_lost hretired).1]
  inOrder := by
    rw [List.map_append]
    exact h.inOrder.append (List.sublist_append_left _ _)
  place := by
    obtain ⟨place, hplace, hpassed⟩ := h.place
    obtain ⟨place', hplaced, hplace', hreaches⟩ := hc.place
    refine ⟨place', hplace', ?_⟩
    intro x hx
    rcases List.mem_append.mp hx with hold | hnew
    · cases hface : r.faces.get? id with
      | none =>
        rw [(h.nothing_lost hretired).2 (by simp [isLive, hface])] at hold
        cases hold
      | some f => rw [hpassed x hold, ← hplace f hface, hplaced f hface]
    · exact hreaches x hnew
  fresh hlt := by
    rw [h.fresh (UInt32.lt_of_le_of_lt hc.latest hlt), hc.fresh hlt]
    rfl

lemma run (h : r.Carried id joined left passed) (hq : r.Queues) (op : Operation σ κ) :
    (op.run r).Carried id (joined ++ op.joins id r) (left ++ op.leaves id r)
      (passed ++ op.reaches id r) := by
  have hc := hq.carries op id
  by_cases hretired : r.Retired id
  · obtain ⟨hjoins, hleaves, hreaches⟩ := hc.of_retired hretired
    rw [hjoins, hleaves, hreaches, List.append_nil, List.append_nil, List.append_nil]
    exact h.run_of_retired hc hretired
  · exact h.run_of_not_retired hc hretired

end Carried

omit [Scheduler σ] [CacheStrategy κ] in
lemma Carried.create {config : Config} {clock : Timestamp} {digest : Bytes → Digest}
    {r : Relay σ κ} (hnew : Relay.create config clock digest = .ok r) (id : FaceId) :
    r.Carried id [] [] [] := by
  unfold Relay.create at hnew
  split at hnew
  · cases hnew
  · cases hnew
    exact ⟨⟨[], rfl, fun _ => rfl⟩, .slnil, ⟨(none, none), nofun, List.forall_mem_nil _⟩,
      fun _ => rfl⟩

lemma Queues.runAll {r : Relay σ κ} (h : r.Queues) (ops : List (Operation σ κ)) :
    (Operation.runAll ops r).Queues := by
  induction ops generalizing r with
  | nil => exact h
  | cons op ops ih => exact ih (h.run op)

/-- So it is for all that operations record one after the other. -/
lemma Carried.runAll {r : Relay σ κ} {id : FaceId} {joined left : List Bytes}
    {passed : List (Nat × TransmitRequest)} (h : r.Carried id joined left passed)
    (hq : r.Queues) (ops : List (Operation σ κ)) :
    (Operation.runAll ops r).Carried id (joined ++ Operation.record (Operation.joins id) ops r)
      (left ++ Operation.record (Operation.leaves id) ops r)
      (passed ++ Operation.record (Operation.reaches id) ops r) := by
  induction ops generalizing r joined left passed with
  | nil =>
    simp only [Operation.record, List.append_nil]
    exact h
  | cons op ops ih =>
    have hrest := ih (h.run hq op) (hq.run op)
    rw [List.append_assoc, List.append_assoc, List.append_assoc] at hrest
    exact hrest

end Relay

/-! ## Counters -/

/-- What the interfaces have dropped altogether. -/
def totalDropped {σ : Type} (interfaces : List (Interface σ)) : Nat :=
  interfaces.foldl (fun total i => total + i.dropped.toNat) 0

/-- The requests refused by the first `n` interfaces. -/
def Event.refusedBelow (n : Nat) (log : List Event) : Nat :=
  log.countP fun event => event.isRefusal && event.interface?.any (· < n)

lemma Event.refusedBelow_succ (n : Nat) (log : List Event) :
    refusedBelow (n + 1) log = refusedBelow n log + (refused n log).length := by
  have hcons : ∀ (m : Nat) (event : Event) (log : List Event), refusedBelow m (event :: log) =
      refusedBelow m log + if event.isRefusal && event.interface?.any (· < m) then 1 else 0 :=
    fun m event log => List.countP_cons
  induction log with
  | nil => rfl
  | cons event log ih =>
    have hevent : (if event.isRefusal && event.interface?.any (· < n + 1) then 1 else 0) =
        (if event.isRefusal && event.interface?.any (· < n) then 1 else 0) +
          (refused n [event]).length := by
      cases event with
      | accepted j request hasRoom =>
        cases hasRoom with
        | true => rfl
        | false =>
          by_cases hj : j = n
          · simp [isRefusal, interface?, refused, refuses?, hj]
          · have hbelow : decide (j < n + 1) = decide (j < n) := decide_eq_decide.mpr (by omega)
            have hnone : refused n [accepted j request false] = [] := by
              simp [refused, refuses?, hj]
            change (if decide (j < n + 1) then 1 else 0) = (if decide (j < n) then 1 else 0) + _
            rw [hbelow, hnone]
            rfl
      | _ => rfl
    have hrefused : refused n (event :: log) = refused n [event] ++ refused n log :=
      refused_append n [event] log
    rw [hcons, hcons, ih, hevent, hrefused, List.length_append]
    omega

lemma Event.refusedBelow_le (n : Nat) (log : List Event) :
    refusedBelow n log ≤ log.countP isOffer := by
  apply List.countP_mono_left
  intro event _ hevent
  cases event with
  | accepted _ _ _ => rfl
  | _ => cases hevent

lemma Event.length_refused_le (k : Nat) (log : List Event) :
    (refused k log).length ≤ log.countP isOffer := by
  have hbelow := refusedBelow_le (k + 1) log
  rw [refusedBelow_succ] at hbelow
  omega

lemma Event.length_taken_le (k : Nat) (log : List Event) :
    (taken k log).length ≤ log.countP isOffer := by
  unfold taken
  rw [List.length_filterMap_eq_countP]
  apply List.countP_mono_left
  intro event _ hevent
  cases event with
  | accepted _ _ _ => rfl
  | _ => cases hevent

lemma toNat_ofNat_of_lt {n : Nat} (h : n < UInt64.size) : (UInt64.ofNat n).toNat = n := by
  rw [UInt64.toNat_ofNat']
  exact Nat.mod_eq_of_lt h

namespace Interface.Conserves

variable {σ : Type} {i : Interface σ} {k : Nat} {log : List Event}

lemma toNat_transmitted (h : i.Conserves k log) (hlog : log.countP isOffer < UInt64.size) :
    i.transmitted.toNat = (sent k log).length := by
  have htaken := h.length_taken
  have hle := length_taken_le k log
  rw [h.transmitted]
  exact toNat_ofNat_of_lt (by omega)

lemma toNat_dropped (h : i.Conserves k log) (hlog : log.countP isOffer < UInt64.size) :
    i.dropped.toNat = (refused k log).length := by
  rw [h.dropped]
  exact toNat_ofNat_of_lt (Nat.lt_of_le_of_lt (length_refused_le k log) hlog)

end Interface.Conserves

namespace Relay.Conserves

variable {σ κ : Type} {r : Relay σ κ}

lemma refusedBelow_eq (h : r.Conserves) :
    refusedBelow r.interfaces.length r.log = r.log.countP isRefusal := by
  apply List.countP_congr
  intro event hevent
  cases event with
  | accepted j request hasRoom =>
    have hlt := h.known _ hevent j rfl
    simp [interface?, hlt]
  | _ => rfl

/-- Each refusal is counted by one interface. -/
lemma totalDropped_eq (h : r.Conserves) (hlog : r.log.countP isOffer < UInt64.size) :
    totalDropped r.interfaces = r.log.countP isRefusal := by
  have hfirst : ∀ n ≤ r.interfaces.length,
      totalDropped (r.interfaces.take n) = refusedBelow n r.log := by
    intro n hn
    induction n with
    | zero =>
      have hnone : refusedBelow 0 r.log = 0 := by
        simp [refusedBelow]
      rw [hnone]
      rfl
    | succ n ih =>
      have hi : r.interfaces[n]? = some r.interfaces[n] := List.getElem?_eq_getElem hn
      have hdropped := (h.interfaces n _ hi).toNat_dropped hlog
      rw [List.take_add_one, hi, refusedBelow_succ, ← ih (Nat.le_of_succ_le hn), ← hdropped]
      unfold totalDropped
      rw [List.foldl_append]
      rfl
  have hall := hfirst r.interfaces.length (Nat.le_refl _)
  rw [List.take_length, h.refusedBelow_eq] at hall
  exact hall

lemma toNat_queueDrops (h : r.Conserves) (hlog : r.log.countP isOffer < UInt64.size) :
    r.counters.queueDrops.toNat = totalDropped r.interfaces := by
  have hle := refusedBelow_le r.interfaces.length r.log
  rw [h.refusedBelow_eq] at hle
  rw [h.totalDropped_eq hlog, h.drops]
  exact toNat_ofNat_of_lt (Nat.lt_of_le_of_lt hle hlog)

end Relay.Conserves

/-- What an interface accepted is what it handed to the link, followed by what waits on it, and the
packets of a face pass through its queue in order. Interfaces and relay count what is handed on and
what is refused because 64 requests are waiting. -/
theorem pipeline_conserves_packets {σ κ : Type} [Scheduler σ] [CacheStrategy κ] {config : Config}
    {clock : Timestamp} {digest : Bytes → Digest} {created r : Relay σ κ}
    {ops : List (Operation σ κ)} (hcreated : Relay.create config clock digest = .ok created)
    (hrun : Operation.runAll ops created = r) :
    (∀ k i, r.interfaces[k]? = some i →
      (∃ gone, taken k r.log = gone ++ i.queue.toList ∧
        sent k r.log = gone.map TransmitRequest.frame) ∧
      i.queue.toList.length ≤ 64 ∧
      (r.log.countP isOffer < UInt64.size →
        i.transmitted.toNat = (sent k r.log).length ∧
          i.dropped.toNat = (refused k r.log).length)) ∧
    (r.log.countP isOffer < UInt64.size →
      r.counters.queueDrops.toNat = totalDropped r.interfaces) ∧
    (∀ before k request hasRoom after, r.log = before ++ .accepted k request hasRoom :: after →
      (hasRoom = false ↔ (taken k before).length = (sent k before).length + 64)) ∧
    ∀ id,
      ((Operation.record (Operation.reaches id) ops created).map
        fun x => x.2.packet).Sublist (Operation.record (Operation.leaves id) ops created) ∧
      Operation.record (Operation.leaves id) ops created <+:
        Operation.record (Operation.joins id) ops created ∧
      (∃ place, ∀ x ∈ Operation.record (Operation.reaches id) ops created,
        (some x.1, some x.2.destination) = place) ∧
      ∀ f, r.faces.get? id = some f →
        Operation.record (Operation.leaves id) ops created ++ f.queue =
          Operation.record (Operation.joins id) ops created ∧
        f.queue.Nodup ∧
        ∀ x ∈ Operation.record (Operation.reaches id) ops created,
          f.interface = some x.1 ∧ f.peer = some x.2.destination := by
  have hconserves : r.Conserves := by
    rw [← hrun]
    exact (Relay.Conserves.create hcreated).runAll ops
  refine ⟨?_, hconserves.toNat_queueDrops, hconserves.refusals, ?_⟩
  · intro k i hi
    have hi' := hconserves.interfaces k i hi
    refine ⟨hi'.requests, ?_, fun hlog => ⟨hi'.toNat_transmitted hlog, hi'.toNat_dropped hlog⟩⟩
    rw [Ring.length_toList hi'.filled]
    exact i.queue.len_le
  · intro id
    have hcarried := (Relay.Carried.create hcreated id).runAll (Relay.Queues.create hcreated) ops
    rw [hrun, List.nil_append, List.nil_append, List.nil_append] at hcarried
    obtain ⟨lost, hqueue, hlost⟩ := hcarried.queue
    obtain ⟨place, hplace, hpassed⟩ := hcarried.place
    refine ⟨hcarried.inOrder, ⟨_, hqueue⟩, ⟨place, hpassed⟩, ?_⟩
    intro f hf
    have hqueues : r.Queues := by
      rw [← hrun]
      exact (Relay.Queues.create hcreated).runAll ops
    rw [hlost (Relay.isLive_of_get? hf), Relay.waits_of_get? hf, List.append_nil] at hqueue
    refine ⟨hqueue, hqueues.nodup id f hf, ?_⟩
    intro x hx
    have hsame : (some x.1, some x.2.destination) = f.place := by
      rw [hpassed x hx, hplace f hf]
    exact ⟨(congrArg Prod.fst hsame).symm, (congrArg Prod.snd hsame).symm⟩

namespace Sample

/-- The program puts a packet on the queue of a peer. Another one is offered, and the first one moves
on, is handed to the link, and makes room for a request of the program. -/
def carrying : List (Operation Allowance CachePolicy) :=
  [meets 2, .changeFace ⟨1⟩ (.enqueue [7]), .faceEnqueue ⟨1⟩ [8], .interfaceClearToSend 0,
    .interfaceEnqueue 0 (some ⟨1⟩) [9] (.link (Vector.replicate 6 3) linkEthertype)]

def carried : Relay Allowance CachePolicy :=
  Operation.runAll carrying created

end Sample

/-- The packet that was queued first goes first, and what is counted is what was handed on. -/
theorem queued_packets_move_on_in_order :
    Relay.create Sample.config ⟨0⟩ Sample.digest = .ok Sample.created ∧
      sent 0 Sample.carried.log = [(.link (Vector.replicate 6 2) linkEthertype, [7])] ∧
      (∃ i, Sample.carried.interfaces[0]? = some i ∧
        i.transmitted.toNat = (sent 0 Sample.carried.log).length ∧
        i.dropped.toNat = (refused 0 Sample.carried.log).length) ∧
      Sample.carried.counters.queueDrops.toNat = totalDropped Sample.carried.interfaces ∧
      Operation.record (Operation.joins ⟨1⟩) Sample.carrying Sample.created = [[7], [8]] ∧
      Operation.record (Operation.leaves ⟨1⟩) Sample.carrying Sample.created <+: [[7], [8]] := by
  have hcreated : Relay.create Sample.config ⟨0⟩ Sample.digest = .ok Sample.created := rfl
  have hrun : Operation.runAll Sample.carrying Sample.created = Sample.carried := rfl
  have hjoins :
      Operation.record (Operation.joins ⟨1⟩) Sample.carrying Sample.created = [[7], [8]] := by
    decide
  have hfew : Sample.carried.log.countP isOffer < UInt64.size := by decide
  have hindex : 0 < Sample.carried.interfaces.length := by decide
  obtain ⟨hinterfaces, hdrops, -, hfaces⟩ := pipeline_conserves_packets hcreated hrun
  obtain ⟨-, -, hcounted⟩ := hinterfaces 0 _ (List.getElem?_eq_getElem hindex)
  obtain ⟨-, hleaves, -⟩ := hfaces ⟨1⟩
  rw [hjoins] at hleaves
  exact ⟨hcreated, by decide, ⟨_, List.getElem?_eq_getElem hindex, hcounted hfew⟩, hdrops hfew,
    hjoins, hleaves⟩

end NamedRelay
