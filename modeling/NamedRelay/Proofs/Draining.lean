import NamedRelay.Proofs.BoundedQueue
import NamedRelay.Proofs.Consultation

/-!
# Draining the interfaces

An interface sends while its oldest packet may go. Neither the scheduler nor the link sets a bound
to that, but nothing comes in meanwhile, so the packets that wait are the bound: `SendsWhileReady` is
the loop as it stands, and it ends where the bounded one does. What leaves is a leading part of the
queue, each packet granted before it goes and reported after, and what stays has just been refused.
-/

namespace NamedRelay

def Event.isTransmitted : Event → Bool
  | transmitted _ _ _ => true
  | _ => false

namespace Relay

variable {σ κ : Type}

/-- The requests that wait on an interface, from the oldest to the newest. -/
def queueOn (r : Relay σ κ) (k : Nat) : List TransmitRequest :=
  (r.interfaces[k]?).elim [] fun i => i.queue.toList

/-- The requests at the front of the queue of an interface that are gone later on. -/
def departed (r r' : Relay σ κ) (k : Nat) : List TransmitRequest :=
  (r.queueOn k).take ((r.queueOn k).length - (r'.queueOn k).length)

/-- What the scheduler of an interface answers for a packet, if there is one. -/
def verdict (r : Relay σ κ) (k length : Nat) (granted : Bool) : List Event :=
  if r.isGoverned (.interface k) then [.sendRequested (.interface k) 1 length granted] else []

/-- A packet leaves: it is granted, handed to the link, and reported to the interface and to the
face that it comes from. -/
def departure (r : Relay σ κ) (k : Nat) (request : TransmitRequest) : List Event :=
  r.verdict k request.packet.length true ++
    .transmitted k request.destination request.packet ::
      r.reports (.interface k :: request.face.toList.map .face) request.packet.length

/-- The answer after which a packet stays. -/
def refusal (r : Relay σ κ) (k : Nat) : List Event :=
  (r.queueOn k).head?.toList.map fun request =>
    .sendRequested (.interface k) 1 request.packet.length false

/-- What an interface does from one state to another: packets leave, and the next one is refused. -/
def passage (r r' : Relay σ κ) (k : Nat) : List Event :=
  (r.departed r' k).flatMap (r.departure k) ++ r'.refusal k

lemma queueOn_eq {r : Relay σ κ} {k : Nat} {i : Interface σ} (hi : r.interfaces[k]? = some i) :
    r.queueOn k = i.queue.toList := by
  unfold queueOn
  rw [hi, Option.elim_some]

lemma queueOn_congr {r r' : Relay σ κ} {k : Nat} (h : r'.interfaces[k]? = r.interfaces[k]?) :
    r'.queueOn k = r.queueOn k := by
  unfold queueOn
  rw [h]

lemma departed_eq {r r' : Relay σ κ} {k : Nat} {gone : List TransmitRequest}
    (h : r.queueOn k = gone ++ r'.queueOn k) : r.departed r' k = gone := by
  unfold departed
  rw [h, List.length_append, Nat.add_sub_cancel, List.take_left]

/-- What an interface does is seen from what it is before and after. -/
lemma passage_congr {r r' m m' : Relay σ κ} {k : Nat}
    (hbefore : r.interfaces[k]? = m.interfaces[k]?)
    (hafter : r'.interfaces[k]? = m'.interfaces[k]?) (hdeparture : r.departure = m.departure) :
    r.passage r' k = m.passage m' k := by
  unfold passage refusal departed
  rw [queueOn_congr hbefore, queueOn_congr hafter, hdeparture]

lemma countP_verdict (r : Relay σ κ) (k length : Nat) (granted : Bool) :
    (r.verdict k length granted).countP Event.isTransmitted = 0 := by
  unfold verdict
  split <;> rfl

lemma countP_departure (r : Relay σ κ) (k : Nat) (request : TransmitRequest) :
    (r.departure k request).countP Event.isTransmitted = 1 := by
  have hreports : ∀ governors length,
      (r.reports governors length).countP Event.isTransmitted = 0 := by
    intro governors length
    rw [List.countP_eq_zero]
    intro event hevent
    obtain ⟨g, -, rfl⟩ := List.mem_map.mp hevent
    simp [Event.isTransmitted]
  unfold departure
  rw [List.countP_append, countP_verdict, List.countP_cons, hreports]
  rfl

lemma Conserves.holds {r : Relay σ κ} (h : r.Conserves) {k : Nat} {request : TransmitRequest}
    {rest : List TransmitRequest} (hqueue : r.queueOn k = request :: rest) :
    ∃ i, r.interfaces[k]? = some i ∧ i.queue.Holds (request :: rest) := by
  cases hi : r.interfaces[k]? with
  | none =>
    unfold queueOn at hqueue
    rw [hi] at hqueue
    cases hqueue
  | some i =>
    rw [queueOn_eq hi] at hqueue
    exact ⟨i, rfl, (h.interfaces k i hi).filled, hqueue⟩

lemma waitingOn_eq {r : Relay σ κ} (hc : r.Conserves) (k : Nat) :
    (r.queueOn k).length = r.waitingOn k := by
  unfold queueOn waitingOn
  cases hi : r.interfaces[k]? with
  | none => rfl
  | some i => exact Ring.length_toList (hc.interfaces k i hi).filled

variable [Scheduler σ]

/-! ## The loop -/

/-- Sends the oldest packet of an interface if it may go, and tells whether one has left. -/
def sendIfReady (r : Relay σ κ) (k : Nat) : Bool × Relay σ κ :=
  match r.interfaceReady k with
  | (false, r) => (false, r)
  | (true, r) => r.interfaceClearToSend k

/-- An interface sends while its oldest packet may go, and this many leave. -/
inductive SendsWhileReady (k : Nat) : Relay σ κ → Nat → Relay σ κ → Prop where
  | stops {r r' : Relay σ κ} : r.sendIfReady k = (false, r') → SendsWhileReady k r 0 r'
  | sends {r m r' : Relay σ κ} {count : Nat} : r.sendIfReady k = (true, m) →
      SendsWhileReady k m count r' → SendsWhileReady k r (count + 1) r'

/-- The interfaces send one after the other. -/
inductive SendInTurn : Relay σ κ → List Nat → Nat → Relay σ κ → Prop where
  | done (r : Relay σ κ) : SendInTurn r [] 0 r
  | next {r m r' : Relay σ κ} {k : Nat} {ks : List Nat} {count more : Nat} :
      SendsWhileReady k r count m → SendInTurn m ks more r' →
      SendInTurn r (k :: ks) (count + more) r'

lemma SendsWhileReady.unique {k : Nat} {r m m' : Relay σ κ} {count count' : Nat}
    (h : SendsWhileReady k r count m) (h' : SendsWhileReady k r count' m') :
    count = count' ∧ m = m' := by
  induction h generalizing count' with
  | stops hstops =>
    cases h' with
    | stops hstops' =>
      rw [hstops] at hstops'
      cases hstops'
      exact ⟨rfl, rfl⟩
    | sends hsends' _ =>
      rw [hstops] at hsends'
      cases hsends'
  | sends hsends _ ih =>
    cases h' with
    | stops hstops' =>
      rw [hsends] at hstops'
      cases hstops'
    | sends hsends' hrest' =>
      rw [hsends] at hsends'
      cases hsends'
      obtain ⟨rfl, rfl⟩ := ih hrest'
      exact ⟨rfl, rfl⟩

lemma SendInTurn.unique {r m m' : Relay σ κ} {ks : List Nat} {count count' : Nat}
    (h : r.SendInTurn ks count m) (h' : r.SendInTurn ks count' m') :
    count = count' ∧ m = m' := by
  induction h generalizing count' with
  | done =>
    cases h'
    exact ⟨rfl, rfl⟩
  | next hfirst _ ih =>
    cases h' with
    | next hfirst' hrest' =>
      obtain ⟨rfl, rfl⟩ := hfirst.unique hfirst'
      obtain ⟨rfl, rfl⟩ := ih hrest'
      exact ⟨rfl, rfl⟩

lemma drain_succ (limit : Nat) (r : Relay σ κ) (k : Nat) :
    drain (limit + 1) r k =
      match r.sendIfReady k with
      | (false, r') => (0, r')
      | (true, m) => ((drain limit m k).1 + 1, (drain limit m k).2) := by
  unfold sendIfReady
  rw [drain]
  rcases r.interfaceReady k with ⟨granted, m⟩
  cases granted with
  | false => rfl
  | true => rfl

/-! ## One packet -/

/-- A packet leaves an interface. -/
structure Departs (r : Relay σ κ) (k : Nat) (request : TransmitRequest) (m : Relay σ κ) :
    Prop where
  consulting : r.Consulting (r.departure k request) m
  queue : r.queueOn k = request :: m.queueOn k
  interface : ∀ i, r.interfaces[k]? = some i → ∃ queue scheduler, m.interfaces[k]? =
    some { i with queue, scheduler, transmitted := i.transmitted + 1 }
  others : ∀ j ≠ k, m.interfaces[j]? = r.interfaces[j]?

/-- An interface has sent what its scheduler lets go: a leading part of its queue has left and is
counted, and it is empty now, or the scheduler has just refused its oldest packet. -/
structure Drained (r r' : Relay σ κ) (k : Nat) : Prop where
  queue : r.queueOn k = r.departed r' k ++ r'.queueOn k
  interface : ∀ i, r.interfaces[k]? = some i → ∃ queue scheduler, r'.interfaces[k]? =
    some { i with
      queue, scheduler
      transmitted := i.transmitted + UInt64.ofNat (r.departed r' k).length }
  stops : r'.queueOn k = [] ∨ ∃ request rest, ∃ s : σ, r'.queueOn k = request :: rest ∧
    (Scheduler.requestToSend s 1 request.packet.length).1 = false ∧
    r'.schedulerOf (.interface k) = some (Scheduler.requestToSend s 1 request.packet.length).2

/-- These interfaces have sent what their schedulers let go, one after the other, and nothing else
has happened. -/
structure Flushes (r : Relay σ κ) (ks : List Nat) (count : Nat) (r' : Relay σ κ) : Prop where
  consulting : r.Consulting (ks.flatMap (r.passage r')) r'
  count : count = (ks.flatMap (r.passage r')).countP Event.isTransmitted
  drained : ∀ k ∈ ks, r.Drained r' k
  others : ∀ j ∉ ks, r'.interfaces[j]? = r.interfaces[j]?

lemma Consulting.departure_eq {r r' : Relay σ κ} {events : List Event}
    (h : r.Consulting events r') : r'.departure = r.departure := by
  unfold departure verdict
  rw [h.isGoverned_eq, h.reports_eq]

lemma Drained.congr {r r' m m' : Relay σ κ} {k : Nat} (h : m.Drained m' k)
    (hbefore : r.interfaces[k]? = m.interfaces[k]?)
    (hafter : r'.interfaces[k]? = m'.interfaces[k]?) : r.Drained r' k := by
  obtain ⟨hqueue, hinterface, hstops⟩ := h
  unfold departed at hqueue hinterface
  constructor
  · unfold departed
    rw [queueOn_congr hbefore, queueOn_congr hafter]
    exact hqueue
  · unfold departed
    rw [queueOn_congr hbefore, queueOn_congr hafter, hbefore, hafter]
    exact hinterface
  · have hscheduler : r'.schedulerOf (.interface k) = m'.schedulerOf (.interface k) :=
      congrArg (Option.bind · Interface.scheduler) hafter
    rw [queueOn_congr hafter, hscheduler]
    exact hstops

lemma reportSent_interfaces (r : Relay σ κ) (face : Option FaceId) (length : Nat) :
    (r.reportSent face length).interfaces = r.interfaces := by
  unfold reportSent
  split
  · split <;> rfl
  · rfl

/-- The scheduler answers for the oldest packet, and nothing leaves yet. -/
lemma interfaceReady_eq {r : Relay σ κ} {k : Nat} {i : Interface σ} {request : TransmitRequest}
    (hi : r.interfaces[k]? = some i) (hfront : i.queue.front? = some request) :
    ∃ granted scheduler m, r.interfaceReady k = (granted, m) ∧
      m.interfaces = r.interfaces.set k { i with scheduler } ∧
      r.Consulting (r.verdict k request.packet.length granted) m ∧
      (granted = false → ∃ s, (Scheduler.requestToSend s 1 request.packet.length).1 = false ∧
        scheduler = some (Scheduler.requestToSend s 1 request.packet.length).2) := by
  have hscheduler := schedulerOf_interface hi
  unfold interfaceReady Interface.ready
  rw [hi]
  dsimp only
  rw [hfront]
  cases hs : i.scheduler with
  | none =>
    -- The interface is put back as it was, under the name of a changed one.
    have hnobody : r.verdict k request.packet.length true = [] := by
      simp [verdict, isGoverned, hscheduler, hs]
    refine ⟨true, none, _, rfl, ?_, ?_, ?_⟩
    · have hsame : i = { i with scheduler := none } := by
        rw [← hs]
      exact congrArg (r.interfaces.set k) hsame
    · rw [hnobody]
      exact .setInterface hi (.start _) fun _ he => absurd he List.not_mem_nil
    · intro hrefused
      cases hrefused
  | some s =>
    have hsomebody : r.verdict k request.packet.length
        (Scheduler.requestToSend s 1 request.packet.length).1 =
        [.sendRequested (.interface k) 1 request.packet.length
          (Scheduler.requestToSend s 1 request.packet.length).1] := by
      simp [verdict, isGoverned, hscheduler, hs]
    refine ⟨(Scheduler.requestToSend s 1 request.packet.length).1,
      some (Scheduler.requestToSend s 1 request.packet.length).2, _, rfl, rfl, ?_, ?_⟩
    · rw [hsomebody]
      refine .setInterface hi ?_ ?_
      · rw [hs]
        exact .asked (.start _)
      · intro event hevent g hg
        rw [List.mem_singleton.mp hevent] at hg
        exact (Option.some.inj hg).symm
    · exact fun hrefused => ⟨s, hrefused, rfl⟩

/-- The oldest packet leaves. -/
lemma interfaceClearToSend_eq {r : Relay σ κ} {k : Nat} {i : Interface σ}
    {request : TransmitRequest} {queue : Ring TransmitRequest interfaceCapacity}
    (hi : r.interfaces[k]? = some i) (hpop : i.queue.pop = (some request, queue)) :
    ∃ scheduler m, r.interfaceClearToSend k = (true, m) ∧
      m.interfaces =
        r.interfaces.set k { i with queue, scheduler, transmitted := i.transmitted + 1 } ∧
      r.Consulting (.transmitted k request.destination request.packet ::
        r.reports (.interface k :: request.face.toList.map .face) request.packet.length) m := by
  have hscheduler := schedulerOf_interface hi
  let i' : Interface σ := { i with
    queue
    transmitted := i.transmitted + 1
    scheduler := Scheduler.noteOne i.scheduler request.packet.length }
  let events : List Event := .transmitted k request.destination request.packet ::
    r.reports [.interface k] request.packet.length
  let sent : Relay σ κ := ({ r with interfaces := r.interfaces.set k i' }).emitAll events
  have hclear : r.interfaceClearToSend k =
      (true, sent.reportSent request.face request.packet.length) := by
    unfold interfaceClearToSend Interface.clearToSend
    rw [hi]
    dsimp only
    rw [hpop]
    simp only [sent, events, reports_singleton, isGoverned, hscheduler]
    rfl
  have hsent : r.Consulting events sent := by
    have htold := r.reports_singleton_consults (.interface k) request.packet.length
    rw [hscheduler] at htold
    refine .setInterface hi (.other (by simp [Event.governor?]) htold) ?_
    intro event hevent g hg
    rcases List.mem_cons.mp hevent with rfl | hreported
    · cases hg
    · rw [eq_of_mem_reports hreported] at hg
      exact (Option.some.inj hg).symm
  have hall := hsent.trans (reportSent_consulting sent request.face request.packet.length)
  rw [hsent.reports_eq, List.cons_append, ← reports_append, List.singleton_append] at hall
  exact ⟨i'.scheduler, _, hclear, reportSent_interfaces sent _ _, hall⟩

lemma sendIfReady_of_empty {r : Relay σ κ} (hc : r.Conserves) {k : Nat}
    (hqueue : r.queueOn k = []) : r.sendIfReady k = (false, r) := by
  have hready : r.interfaceReady k = (false, r) := by
    unfold interfaceReady
    cases hi : r.interfaces[k]? with
    | none => rfl
    | some i =>
      obtain ⟨hlt, hget⟩ := List.getElem?_eq_some_iff.mp hi
      rw [queueOn_eq hi] at hqueue
      have hholds : i.queue.Holds [] := ⟨(hc.interfaces k i hi).filled, hqueue⟩
      have hfront : i.queue.front? = none := hholds.front?
      unfold Interface.ready
      dsimp only
      rw [hfront, ← hget]
      simp [emitAll]
  unfold sendIfReady
  rw [hready]

namespace Flushes

variable {r m r' : Relay σ κ}

lemma refl (r : Relay σ κ) : r.Flushes [] 0 r where
  consulting := .refl r
  count := rfl
  drained _ hk := absurd hk List.not_mem_nil
  others _ _ := rfl

/-- An interface that has nothing to send is done. -/
lemma of_empty {k : Nat} (hqueue : r.queueOn k = []) : r.Flushes [k] 0 r := by
  have hnone : r.departed r k = [] := departed_eq (List.nil_append _).symm
  have hpassage : r.passage r k = [] := by
    simp [passage, hnone, refusal, hqueue]
  refine ⟨?_, ?_, ?_, fun _ _ => rfl⟩
  · rw [List.flatMap_singleton, hpassage]
    exact .refl r
  · rw [List.flatMap_singleton, hpassage]
    rfl
  · intro j hj
    obtain rfl := List.mem_singleton.mp hj
    refine ⟨?_, ?_, .inl hqueue⟩
    · rw [hnone, List.nil_append]
    · intro i hi
      refine ⟨i.queue, i.scheduler, ?_⟩
      rw [hnone, hi]
      simp

/-- An interface whose oldest packet is refused is done. -/
lemma of_refused {k : Nat} {i : Interface σ} {request : TransmitRequest}
    {rest : List TransmitRequest} {s : σ} (hi : r.interfaces[k]? = some i)
    (hholds : i.queue.Holds (request :: rest))
    (hset : m.interfaces = r.interfaces.set k
      { i with scheduler := some (Scheduler.requestToSend s 1 request.packet.length).2 })
    (hasked : r.Consulting (r.verdict k request.packet.length false) m)
    (hrefused : (Scheduler.requestToSend s 1 request.packet.length).1 = false) :
    r.Flushes [k] 0 m := by
  obtain ⟨hlt, -⟩ := List.getElem?_eq_some_iff.mp hi
  have hown : m.interfaces[k]? = some
      { i with scheduler := some (Scheduler.requestToSend s 1 request.packet.length).2 } := by
    rw [hset, List.getElem?_set_self hlt]
  have hqueue : r.queueOn k = request :: rest := (queueOn_eq hi).trans hholds.toList
  have hstays : m.queueOn k = request :: rest := (queueOn_eq hown).trans hholds.toList
  have hnone : r.departed m k = [] := departed_eq (by rw [hqueue, hstays, List.nil_append])
  have hscheduler := schedulerOf_interface hown
  have hgoverned : r.isGoverned (.interface k) = true := by
    rw [← hasked.isGoverned_eq, isGoverned, hscheduler]
    rfl
  have hpassage : r.passage m k = r.verdict k request.packet.length false := by
    simp [passage, hnone, refusal, hstays, verdict, hgoverned]
  refine ⟨?_, ?_, ?_, ?_⟩
  · rw [List.flatMap_singleton, hpassage]
    exact hasked
  · rw [List.flatMap_singleton, hpassage, countP_verdict]
  · intro j hj
    obtain rfl := List.mem_singleton.mp hj
    refine ⟨?_, ?_, .inr ⟨request, rest, s, hstays, hrefused, hscheduler⟩⟩
    · rw [hnone, hqueue, hstays, List.nil_append]
    · intro i' hi'
      rw [hi] at hi'
      cases hi'
      refine ⟨i.queue, some (Scheduler.requestToSend s 1 request.packet.length).2, ?_⟩
      rw [hown, hnone]
      simp
  · intro j hj
    rw [hset, List.getElem?_set_ne fun heq => hj (List.mem_singleton.mpr heq.symm)]

/-- A packet leaves, and then others do. -/
lemma of_departs {k count : Nat} {request : TransmitRequest} (h : r.Departs k request m)
    (h' : m.Flushes [k] count r') : r.Flushes [k] (count + 1) r' := by
  obtain ⟨hconsulting, hcount, hdrained, hothers⟩ := h'
  have hdrained := hdrained k (List.mem_singleton_self k)
  have hqueue : r.queueOn k = request :: m.departed r' k ++ r'.queueOn k :=
    h.queue.trans (congrArg (List.cons request) hdrained.queue)
  have hdeparted : r.departed r' k = request :: m.departed r' k := departed_eq hqueue
  have hpassage : r.passage r' k = r.departure k request ++ m.passage r' k := by
    unfold passage
    rw [hdeparted, List.flatMap_cons, List.append_assoc, h.consulting.departure_eq]
  rw [List.flatMap_singleton] at hconsulting hcount
  refine ⟨?_, ?_, ?_, ?_⟩
  · rw [List.flatMap_singleton, hpassage]
    exact h.consulting.trans hconsulting
  · rw [List.flatMap_singleton, hpassage, List.countP_append, countP_departure, ← hcount,
      Nat.add_comm]
  · intro j hj
    obtain rfl := List.mem_singleton.mp hj
    refine ⟨?_, ?_, hdrained.stops⟩
    · rw [hdeparted]
      exact hqueue
    · intro i hi
      obtain ⟨queue, scheduler, hm⟩ := h.interface i hi
      obtain ⟨queue', scheduler', hr'⟩ := hdrained.interface _ hm
      refine ⟨queue', scheduler', ?_⟩
      rw [hr', hdeparted, List.length_cons, Nat.add_comm, UInt64.ofNat_add, ← UInt64.add_assoc]
      rfl
  · intro j hj
    rw [hothers j hj, h.others j fun heq => hj (List.mem_singleton.mpr heq)]

/-- One interface sends, and then others do. -/
lemma cons {k count more : Nat} {ks : List Nat} (hk : k ∉ ks) (h : r.Flushes [k] count m)
    (h' : m.Flushes ks more r') : r.Flushes (k :: ks) (count + more) r' := by
  -- No interface has a second turn, so each one is left as its own turn has left it.
  have hafter : r'.interfaces[k]? = m.interfaces[k]? := h'.others k hk
  have hbefore : ∀ j ∈ ks, r.interfaces[j]? = m.interfaces[j]? := fun j hj =>
    (h.others j fun hmem => hk (List.mem_singleton.mp hmem ▸ hj)).symm
  have hevents : (k :: ks).flatMap (r.passage r') =
      [k].flatMap (r.passage m) ++ ks.flatMap (m.passage r') := by
    rw [List.flatMap_cons, List.flatMap_singleton, passage_congr rfl hafter rfl]
    congr 1
    apply List.flatMap_congr
    exact fun j hj => passage_congr (hbefore j hj) rfl h.consulting.departure_eq.symm
  refine ⟨?_, ?_, ?_, ?_⟩
  · rw [hevents]
    exact h.consulting.trans h'.consulting
  · rw [hevents, List.countP_append, ← h.count, ← h'.count]
  · intro j hj
    rcases List.mem_cons.mp hj with rfl | hj
    · exact (h.drained j (List.mem_singleton_self j)).congr rfl hafter
    · exact (h'.drained j hj).congr (hbefore j hj) rfl
  · intro j hj
    rw [List.mem_cons, not_or] at hj
    rw [h'.others j hj.2, h.others j fun hmem => hj.1 (List.mem_singleton.mp hmem)]

end Flushes

/-! ## The run -/

/-- The oldest packet is refused and stays, or it leaves. -/
lemma sendIfReady_cases {r : Relay σ κ} (hc : r.Conserves) {k : Nat} {request : TransmitRequest}
    {rest : List TransmitRequest} (hqueue : r.queueOn k = request :: rest) :
    (∃ m, r.sendIfReady k = (false, m) ∧ r.Flushes [k] 0 m) ∨
      ∃ m, r.sendIfReady k = (true, m) ∧ r.Departs k request m := by
  obtain ⟨i, hi, hholds⟩ := hc.holds hqueue
  obtain ⟨hlt, -⟩ := List.getElem?_eq_some_iff.mp hi
  obtain ⟨granted, scheduler, m, hready, hset, hasked, hrefused⟩ :=
    interfaceReady_eq hi hholds.front?
  have hown : m.interfaces[k]? = some { i with scheduler } := by
    rw [hset, List.getElem?_set_self hlt]
  cases granted with
  | false =>
    left
    obtain ⟨s, hnot, rfl⟩ := hrefused rfl
    refine ⟨m, ?_, .of_refused hi hholds hset hasked hnot⟩
    unfold sendIfReady
    rw [hready]
  | true =>
    right
    obtain ⟨hfirst, hrest⟩ := hholds.pop
    obtain ⟨scheduler', m', hclear, hset', hsent⟩ :=
      interfaceClearToSend_eq hown (Prod.ext hfirst (Eq.refl i.queue.pop.2))
    rw [hset, List.set_set] at hset'
    have hown' : m'.interfaces[k]? = some { i with
        queue := i.queue.pop.2, scheduler := scheduler', transmitted := i.transmitted + 1 } := by
      rw [hset', List.getElem?_set_self hlt]
    refine ⟨m', ?_, ?_, ?_, ?_, ?_⟩
    · unfold sendIfReady
      rw [hready]
      exact hclear
    · rw [hasked.reports_eq] at hsent
      exact hasked.trans hsent
    · rw [queueOn_eq hi, queueOn_eq hown', hholds.toList, hrest.toList]
      rfl
    · intro j hj
      rw [hi] at hj
      cases hj
      exact ⟨_, _, hown'⟩
    · intro j hj
      rw [hset', List.getElem?_set_ne hj.symm]

lemma Conserves.sendIfReady {r : Relay σ κ} (hc : r.Conserves) (k : Nat) :
    (r.sendIfReady k).2.Conserves := by
  have hready := hc.of_still (.interfaceReady r k)
  unfold Relay.sendIfReady
  split
  · rename_i m hm
    rwa [hm] at hready
  · rename_i m hm
    rw [hm] at hready
    exact hready.interfaceClearToSend k

/-- As many steps as packets wait are enough for the loop. -/
lemma drain_flushes {limit : Nat} {r : Relay σ κ} (hc : r.Conserves) {k : Nat}
    (hlimit : (r.queueOn k).length = limit) :
    SendsWhileReady k r (drain limit r k).1 (drain limit r k).2 ∧
      r.Flushes [k] (drain limit r k).1 (drain limit r k).2 := by
  -- The bound is the number of packets that wait, and each step that sends takes one away.
  induction limit generalizing r with
  | zero =>
    have hqueue := List.length_eq_zero_iff.mp hlimit
    exact ⟨.stops (sendIfReady_of_empty hc hqueue), .of_empty hqueue⟩
  | succ limit ih =>
    obtain ⟨request, rest, hqueue⟩ := List.exists_cons_of_length_eq_add_one hlimit
    rw [drain_succ]
    rcases sendIfReady_cases hc hqueue with ⟨m, hstops, hflushes⟩ | ⟨m, hsends, hdeparts⟩
    · rw [hstops]
      exact ⟨.stops hstops, hflushes⟩
    · have hm := hc.sendIfReady k
      rw [hsends] at hm ⊢
      have hleft : (m.queueOn k).length = limit := by
        rw [hdeparts.queue, List.length_cons] at hlimit
        exact Nat.succ.inj hlimit
      obtain ⟨hloop, hflushes⟩ := ih hm hleft
      exact ⟨.sends hsends hloop, hflushes.of_departs hdeparts⟩

lemma foldl_drain_flushes {ks : List Nat} (hks : ks.Nodup) {r : Relay σ κ} (hc : r.Conserves)
    (sent : Nat) :
    ∃ count r', ks.foldl (fun (sent, r) k =>
        let (more, r) := drain (r.waitingOn k) r k
        (sent + more, r)) (sent, r) = (sent + count, r') ∧
      r.SendInTurn ks count r' ∧ r.Flushes ks count r' := by
  induction ks generalizing r sent with
  | nil => exact ⟨0, r, rfl, .done r, .refl r⟩
  | cons k ks ih =>
    obtain ⟨hk, hks⟩ := List.nodup_cons.mp hks
    obtain ⟨hloop, hfirst⟩ := drain_flushes hc (waitingOn_eq hc k)
    obtain ⟨more, r', hfold, hturn, hrest⟩ := ih hks
      (hc.moves (.drain (r.waitingOn k) r k)) (sent + (drain (r.waitingOn k) r k).1)
    exact ⟨_, r', hfold.trans (congrArg (·, r') (Nat.add_assoc _ _ _)), .next hloop hturn,
      .cons hk hfirst hrest⟩

lemma transmitAll_flushes {r : Relay σ κ} (hc : r.Conserves) :
    r.SendInTurn (List.range r.interfaces.length) r.transmitAll.1 r.transmitAll.2 ∧
      r.Flushes (List.range r.interfaces.length) r.transmitAll.1 r.transmitAll.2 := by
  obtain ⟨count, r', hfold, hturn, hflushes⟩ :=
    foldl_drain_flushes (List.nodup_range (n := r.interfaces.length)) hc 0
  rw [Nat.zero_add] at hfold
  have hsame : r.transmitAll = (count, r') := hfold
  rw [hsame]
  exact ⟨hturn, hflushes⟩

end Relay

lemma Reachable.conserves {σ κ : Type} [Scheduler σ] [CacheStrategy κ] {r : Relay σ κ}
    (h : Reachable r) : r.Conserves := by
  induction h with
  | create config clock digest hnew => exact .create hnew
  | run op _ ih => exact ih.run op

/-- The loop without a bound ends, for any schedulers, and it ends as `transmitAll` does. The
interfaces have sent one after the other, and the number is that of the packets that links were
handed. A leading part of each queue has left in its order. Before each packet the interface's
scheduler has granted one of its length, and right after it the interface was told, and the face it
comes from, if it is there. Each queue is empty in the end, or its oldest packet was refused last.
Of the faces only schedulers have changed, and of the rest nothing but the interfaces and the log. A
link gives no answer, so no link can change that. -/
theorem transmitting_drains_interfaces {σ κ : Type} [Scheduler σ] [CacheStrategy κ]
    {r : Relay σ κ} (h : Reachable r) :
    let (count, r') := r.transmitAll
    let events := (List.range r.interfaces.length).flatMap (r.passage r')
    (∀ n m, r.SendInTurn (List.range r.interfaces.length) n m ↔ n = count ∧ m = r') ∧
      count = events.countP Event.isTransmitted ∧ r'.log = r.log ++ events ∧
      r.Consulting events r' ∧ ∀ k < r.interfaces.length, r.Drained r' k := by
  obtain ⟨hturn, hflushes⟩ := Relay.transmitAll_flushes h.conserves
  refine ⟨?_, hflushes.count, hflushes.consulting.log, hflushes.consulting, ?_⟩
  · intro n m
    constructor
    · exact fun hm => hm.unique hturn
    · rintro ⟨rfl, rfl⟩
      exact hturn
  · exact fun k hk => hflushes.drained k (List.mem_range.mpr hk)

namespace Sample

/-- Packets of one byte may go from the link. Two such packets wait there, of which the second comes
from a face that has gone, and then a longer one and another short one. -/
def loaded : Relay Allowance CachePolicy :=
  Operation.runAll
    [.setInterfaceScheduler 0 short, .changeFace ⟨1⟩ (.scheduler short),
      .changeFace ⟨2⟩ (.scheduler short),
      .interfaceEnqueue 0 (some ⟨1⟩) [1] (.link (Vector.replicate 6 2) linkEthertype),
      .interfaceEnqueue 0 (some ⟨2⟩) [2] (.link (Vector.replicate 6 3) linkEthertype),
      .interfaceEnqueue 0 none [3, 4] (.link (Vector.replicate 6 2) linkEthertype),
      .interfaceEnqueue 0 none [5] (.link (Vector.replicate 6 2) linkEthertype),
      .removeFace ⟨2⟩] peered

lemma reachable_loaded : Reachable loaded :=
  reachable_peered.runAll _

end Sample

/-- The two short packets leave, and the longer one holds back the one behind it. -/
theorem long_packet_holds_back_short_one :
    Reachable Sample.loaded ∧ Sample.loaded.SendInTurn [0] 2 Sample.loaded.transmitAll.2 ∧
      Sample.loaded.transmitAll.2.log = Sample.loaded.log ++
        [.sendRequested (.interface 0) 1 1 true,
          .transmitted 0 (.link (Vector.replicate 6 2) linkEthertype) [1],
          .sendReported (.interface 0) 1 1, .sendReported (.face ⟨1⟩) 1 1,
          .sendRequested (.interface 0) 1 1 true,
          .transmitted 0 (.link (Vector.replicate 6 3) linkEthertype) [2],
          .sendReported (.interface 0) 1 1,
          .sendRequested (.interface 0) 1 2 false] ∧
      Sample.loaded.Drained Sample.loaded.transmitAll.2 0 ∧
      (Sample.loaded.transmitAll.2.queueOn 0).map TransmitRequest.packet = [[3, 4], [5]] := by
  obtain ⟨hloop, -, hlog, -, hdrained⟩ := transmitting_drains_interfaces Sample.reachable_loaded
  exact ⟨Sample.reachable_loaded, (hloop _ _).mpr ⟨rfl, rfl⟩, hlog, hdrained 0 (by decide), rfl⟩

end NamedRelay
