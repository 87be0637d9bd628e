import NamedRelay.Proofs.Pipeline
import NamedRelay.Proofs.RateControl

/-!
# The queues of interfaces

What an interface has accepted is what it has handed to the link, followed by what waits on it, in
this order and unaltered. It refuses a request if 64 are waiting, and the interface and the relay
count the requests that are refused.
-/

namespace NamedRelay

/-- What the link gets of a request. -/
def TransmitRequest.frame (request : TransmitRequest) : Address × Bytes :=
  (request.destination, request.packet)

namespace Event

/-- The interface that a packet reaches or leaves. -/
def interface? : Event → Option Nat
  | accepted k _ _ => some k
  | transmitted k _ _ => some k
  | _ => none

def takes? (k : Nat) : Event → Option TransmitRequest
  | accepted j request true => if j = k then some request else none
  | _ => none

def refuses? (k : Nat) : Event → Option TransmitRequest
  | accepted j request false => if j = k then some request else none
  | _ => none

def sends? (k : Nat) : Event → Option (Address × Bytes)
  | transmitted j destination packet => if j = k then some (destination, packet) else none
  | _ => none

/-- The requests the interface had room for. -/
def taken (k : Nat) (events : List Event) : List TransmitRequest :=
  events.filterMap (takes? k)

/-- The requests the interface had no room for. -/
def refused (k : Nat) (events : List Event) : List TransmitRequest :=
  events.filterMap (refuses? k)

/-- What the interface handed to the link. -/
def sent (k : Nat) (events : List Event) : List (Address × Bytes) :=
  events.filterMap (sends? k)

/-- A request is put on an interface, which has room for it or not. -/
def isOffer : Event → Bool
  | accepted _ _ _ => true
  | _ => false

def isRefusal : Event → Bool
  | accepted _ _ hasRoom => !hasRoom
  | _ => false

lemma isOffer_of_interface? {event : Event} (h : event.interface? = none) :
    event.isOffer = false := by
  cases event with
  | accepted _ _ _ => cases h
  | _ => rfl

lemma countP_isRefusal_eq_zero {events : List Event} (h : ∀ event ∈ events, event.isOffer = false) :
    events.countP isRefusal = 0 := by
  rw [List.countP_eq_zero]
  intro event hevent
  have hoffer := h event hevent
  cases event with
  | accepted _ _ _ => cases hoffer
  | _ => exact Bool.false_ne_true

lemma interface?_of_not_transport {event : Event} (h : event.isTransport = false) :
    event.interface? = none := by
  cases event with
  | accepted _ _ _ => cases h
  | transmitted _ _ _ => cases h
  | _ => rfl

section

variable (k : Nat)

lemma taken_append (events new : List Event) :
    taken k (events ++ new) = taken k events ++ taken k new :=
  List.filterMap_append

lemma refused_append (events new : List Event) :
    refused k (events ++ new) = refused k events ++ refused k new :=
  List.filterMap_append

lemma sent_append (events new : List Event) :
    sent k (events ++ new) = sent k events ++ sent k new :=
  List.filterMap_append

lemma taken_accepted (request : TransmitRequest) (hasRoom : Bool) :
    taken k [.accepted k request hasRoom] = if hasRoom then [request] else [] := by
  cases hasRoom <;> simp [taken, takes?, List.filterMap_cons]

lemma refused_accepted (request : TransmitRequest) (hasRoom : Bool) :
    refused k [.accepted k request hasRoom] = if hasRoom then [] else [request] := by
  cases hasRoom <;> simp [refused, refuses?, List.filterMap_cons]

lemma sent_accepted (request : TransmitRequest) (hasRoom : Bool) :
    sent k [.accepted k request hasRoom] = [] :=
  rfl

lemma taken_transmitted (destination : Address) (packet : Bytes) :
    taken k [.transmitted k destination packet] = [] :=
  rfl

lemma refused_transmitted (destination : Address) (packet : Bytes) :
    refused k [.transmitted k destination packet] = [] :=
  rfl

lemma sent_transmitted (destination : Address) (packet : Bytes) :
    sent k [.transmitted k destination packet] = [(destination, packet)] := by
  simp [sent, sends?]

end

section

variable {k : Nat} {event : Event}

lemma takes?_eq_none (h : event.interface? ≠ some k) : event.takes? k = none := by
  unfold takes?
  split
  · rename_i j request
    exact if_neg fun heq => h (congrArg some heq)
  · rfl

lemma refuses?_eq_none (h : event.interface? ≠ some k) : event.refuses? k = none := by
  unfold refuses?
  split
  · rename_i j request
    exact if_neg fun heq => h (congrArg some heq)
  · rfl

lemma sends?_eq_none (h : event.interface? ≠ some k) : event.sends? k = none := by
  unfold sends?
  split
  · rename_i j destination packet
    exact if_neg fun heq => h (congrArg some heq)
  · rfl

/-- Events of other interfaces. -/
lemma nothing_of_other {events : List Event} (h : ∀ event ∈ events, event.interface? ≠ some k) :
    taken k events = [] ∧ refused k events = [] ∧ sent k events = [] := by
  unfold taken refused sent
  simp only [List.filterMap_eq_nil_iff]
  exact ⟨fun event hevent => takes?_eq_none (h event hevent),
    fun event hevent => refuses?_eq_none (h event hevent),
    fun event hevent => sends?_eq_none (h event hevent)⟩

end

end Event

open Event

namespace Interface

variable {σ : Type}

/-- The interface and the log agree on what came in, what went out and what waits. -/
structure Conserves (i : Interface σ) (k : Nat) (log : List Event) : Prop where
  filled : i.queue.Filled
  requests : ∃ gone, taken k log = gone ++ i.queue.toList ∧
    sent k log = gone.map TransmitRequest.frame
  transmitted : i.transmitted = UInt64.ofNat (sent k log).length
  dropped : i.dropped = UInt64.ofNat (refused k log).length

namespace Conserves

variable {i : Interface σ} {k : Nat} {log : List Event}

lemma of_line {i' : Interface σ} (h : i.Conserves k log) (hline : i'.line = i.line) :
    i'.Conserves k log := by
  have hqueue : i'.queue = i.queue := congrArg InterfaceLine.queue hline
  have htransmitted : i'.transmitted = i.transmitted := congrArg InterfaceLine.transmitted hline
  have hdropped : i'.dropped = i.dropped := congrArg InterfaceLine.dropped hline
  exact ⟨hqueue ▸ h.filled, hqueue ▸ h.requests, htransmitted.trans h.transmitted,
    hdropped.trans h.dropped⟩

/-- Events of other interfaces may come in between. -/
lemma of_other {events : List Event} (h : i.Conserves k log)
    (hother : ∀ event ∈ events, event.interface? ≠ some k) : i.Conserves k (log ++ events) := by
  obtain ⟨htaken, hrefused, hsent⟩ := nothing_of_other hother
  have htaken' : taken k (log ++ events) = taken k log := by
    rw [taken_append, htaken, List.append_nil]
  have hrefused' : refused k (log ++ events) = refused k log := by
    rw [refused_append, hrefused, List.append_nil]
  have hsent' : sent k (log ++ events) = sent k log := by
    rw [sent_append, hsent, List.append_nil]
  refine ⟨h.filled, ?_, ?_, ?_⟩
  · rw [htaken', hsent']
    exact h.requests
  · rw [hsent']
    exact h.transmitted
  · rw [hrefused']
    exact h.dropped

/-- As many requests wait as have come in and not gone out. -/
lemma length_taken (h : i.Conserves k log) :
    (taken k log).length = (sent k log).length + i.queue.len := by
  obtain ⟨gone, htaken, hsent⟩ := h.requests
  rw [htaken, hsent, List.length_append, List.length_map, Ring.length_toList h.filled]

/-- A request waits last, or is dropped and counted. -/
lemma enqueue (h : i.Conserves k log) (request : TransmitRequest) :
    (i.enqueue request).2.Conserves k (log ++ [.accepted k request (i.enqueue request).1]) := by
  obtain ⟨gone, htaken, hsent⟩ := h.requests
  by_cases hfull : i.queue.len = interfaceCapacity
  · have hdrop : i.enqueue request = (false, { i with dropped := i.dropped + 1 }) := by
      unfold Interface.enqueue
      rw [Ring.push_of_full hfull]
    rw [hdrop]
    refine ⟨h.filled, ⟨gone, ?_, ?_⟩, ?_, ?_⟩
    · rw [taken_append, taken_accepted, htaken]
      exact List.append_nil _
    · rw [sent_append, sent_accepted, hsent, List.append_nil]
    · rw [sent_append, sent_accepted, List.append_nil]
      exact h.transmitted
    · rw [refused_append, refused_accepted, List.length_append, UInt64.ofNat_add, ← h.dropped]
      rfl
  · have hpush : i.enqueue request = (true, { i with queue := i.queue.pushed request }) := by
      unfold Interface.enqueue
      rw [Ring.push_of_not_full hfull]
    rw [hpush]
    refine ⟨h.filled.pushed hfull request, ⟨gone, ?_, ?_⟩, ?_, ?_⟩
    · rw [taken_append, taken_accepted, htaken, Ring.toList_pushed hfull, List.append_assoc]
      rfl
    · rw [sent_append, sent_accepted, hsent, List.append_nil]
    · rw [sent_append, sent_accepted, List.append_nil]
      exact h.transmitted
    · rw [refused_append, refused_accepted]
      simpa using h.dropped

/-- A request is dropped if 64 are waiting. -/
lemma enqueue_refuses_iff (h : i.Conserves k log) (request : TransmitRequest) :
    (i.enqueue request).1 = false ↔
      (taken k log).length = (sent k log).length + interfaceCapacity := by
  rw [h.length_taken, Nat.add_left_cancel_iff]
  unfold Interface.enqueue
  by_cases hfull : i.queue.len = interfaceCapacity
  · simp [Ring.push_of_full hfull, hfull]
  · simp [Ring.push_of_not_full hfull, hfull]

variable [Scheduler σ]

/-- The oldest request goes out, if there is one. -/
lemma clearToSend (h : i.Conserves k log) {request : TransmitRequest} {i' : Interface σ}
    {events : List Event} (hsends : i.clearToSend k = (some request, i', events)) :
    ∃ report, events = .transmitted k request.destination request.packet :: report ∧
      (∀ event ∈ report, event.isTransport = false) ∧ i'.Conserves k (log ++ events) := by
  by_cases hempty : i.queue.len = 0
  · simp [Interface.clearToSend, Ring.pop_of_empty hempty] at hsends
  · obtain ⟨oldest, hpop, hlist, hfilled⟩ := h.filled.pop hempty
    obtain ⟨gone, htaken, hsent⟩ := h.requests
    unfold Interface.clearToSend at hsends
    rw [hpop] at hsends
    cases hsends
    have hreport : ∀ event ∈ (if i.scheduler.isSome then
        [Event.sendReported (.interface k) 1 request.packet.length] else []),
        event.isTransport = false := by
      split
      · simp [isTransport]
      · simp
    refine ⟨_, rfl, hreport, ?_⟩
    have hsame : ∀ event ∈ (if i.scheduler.isSome then
        [Event.sendReported (.interface k) 1 request.packet.length] else []),
        event.interface? ≠ some k := by
      intro event hevent
      rw [interface?_of_not_transport (hreport event hevent)]
      exact (Option.some_ne_none k).symm
    rw [List.append_cons]
    refine of_other ⟨hfilled, ⟨gone ++ [request], ?_, ?_⟩, ?_, ?_⟩ hsame
    · rw [taken_append, taken_transmitted, htaken, hlist]
      simp
    · rw [sent_append, sent_transmitted, hsent, List.map_append]
      rfl
    · rw [sent_append, sent_transmitted, List.length_append, UInt64.ofNat_add, ← h.transmitted]
      rfl
    · rw [refused_append, refused_transmitted, List.append_nil]
      exact h.dropped

end Conserves

end Interface

/-- An interface refuses a request if 64 are waiting, and not otherwise. -/
def Event.RefusesWhenFull (log : List Event) : Prop :=
  ∀ before k request hasRoom after, log = before ++ .accepted k request hasRoom :: after →
    (hasRoom = false ↔ (taken k before).length = (sent k before).length + interfaceCapacity)

namespace Event.RefusesWhenFull

variable {log : List Event}

lemma append_one (h : RefusesWhenFull log) {event : Event}
    (hevent : ∀ k request hasRoom, event = .accepted k request hasRoom →
      (hasRoom = false ↔ (taken k log).length = (sent k log).length + interfaceCapacity)) :
    RefusesWhenFull (log ++ [event]) := by
  intro before k request hasRoom after hsplit
  rcases List.eq_nil_or_concat' after with rfl | ⟨after', last, rfl⟩
  · obtain ⟨rfl, hlast⟩ := List.append_inj' hsplit rfl
    exact hevent k request hasRoom (List.singleton_inj.mp hlast)
  · rw [← List.cons_append, ← List.append_assoc] at hsplit
    exact h before k request hasRoom after' (List.append_inj' hsplit rfl).1

lemma append (h : RefusesWhenFull log) {events : List Event}
    (hevents : ∀ event ∈ events, event.isOffer = false) : RefusesWhenFull (log ++ events) := by
  induction events generalizing log with
  | nil => rwa [List.append_nil]
  | cons event events ih =>
    rw [List.append_cons]
    apply ih
    · apply h.append_one
      rintro k request hasRoom rfl
      have hoffer := hevents _ List.mem_cons_self
      cases hoffer
    · exact fun e he => hevents e (List.mem_cons_of_mem event he)

end Event.RefusesWhenFull

namespace Relay

variable {σ κ : Type}

/-! ## Interfaces -/

/-- The interfaces and the counters agree with the log. -/
structure Conserves (r : Relay σ κ) : Prop where
  interfaces : ∀ k (i : Interface σ), r.interfaces[k]? = some i → i.Conserves k r.log
  known : ∀ event ∈ r.log, ∀ k, event.interface? = some k → k < r.interfaces.length
  drops : r.counters.queueDrops = UInt64.ofNat (r.log.countP isRefusal)
  refusals : RefusesWhenFull r.log

namespace Conserves

/-- Nothing happens to the interfaces. -/
lemma of_quiet {r r' : Relay σ κ} (h : r.Conserves)
    (hinterfaces : r'.interfaces.map Interface.line = r.interfaces.map Interface.line)
    (hdrops : r'.counters.queueDrops = r.counters.queueDrops) {events : List Event}
    (hlog : r'.log = r.log ++ events) (hquiet : ∀ event ∈ events, event.interface? = none) :
    r'.Conserves where
  interfaces k i' hi' := by
    have hline := congrArg (·[k]?) hinterfaces
    simp only [List.getElem?_map, hi', Option.map_some] at hline
    obtain ⟨i, hi, hsame⟩ := Option.map_eq_some_iff.mp hline.symm
    rw [hlog]
    apply ((h.interfaces k i hi).of_line hsame.symm).of_other
    intro event hevent
    rw [hquiet event hevent]
    exact (Option.some_ne_none k).symm
  known event hevent k hk := by
    have hlength : r'.interfaces.length = r.interfaces.length := by
      simpa using congrArg List.length hinterfaces
    rw [hlength]
    rw [hlog, List.mem_append] at hevent
    rcases hevent with hold | hnew
    · exact h.known event hold k hk
    · rw [hquiet event hnew] at hk
      cases hk
  drops := by
    have hnone := countP_isRefusal_eq_zero fun event hevent =>
      isOffer_of_interface? (hquiet event hevent)
    rw [hdrops, hlog, List.countP_append, hnone]
    exact h.drops
  refusals := by
    rw [hlog]
    exact h.refusals.append fun event hevent => isOffer_of_interface? (hquiet event hevent)

lemma of_still {r r' : Relay σ κ} (h : r.Conserves) (hstill : r.Still r') : r'.Conserves := by
  obtain ⟨events, hlog, htransport⟩ := hstill.log
  exact h.of_quiet hstill.interfaces hstill.drops hlog fun event hevent =>
    interface?_of_not_transport (htransport event hevent)

/-- One interface moves on, with events of its own. -/
lemma setInterface {r : Relay σ κ} (h : r.Conserves) {index : Nat} {i i' : Interface σ}
    {event : Event} {report : List Event} (hi : r.interfaces[index]? = some i)
    (hevent : event.interface? = some index) (hreport : ∀ e ∈ report, e.interface? = none)
    (hi' : i'.Conserves index (r.log ++ event :: report)) :
    (∀ k (j : Interface σ), (r.interfaces.set index i')[k]? = some j →
        j.Conserves k (r.log ++ event :: report)) ∧
      ∀ e ∈ r.log ++ event :: report, ∀ k, e.interface? = some k →
        k < (r.interfaces.set index i').length := by
  obtain ⟨hlt, -⟩ := List.getElem?_eq_some_iff.mp hi
  have hown : ∀ e ∈ event :: report, ∀ k, e.interface? = some k → k = index := by
    intro e he k hk
    rcases List.mem_cons.mp he with rfl | he
    · exact Option.some.inj (hk.symm.trans hevent)
    · rw [hreport e he] at hk
      cases hk
  constructor
  · intro k j hj
    rw [List.getElem?_set] at hj
    split at hj
    · rename_i hk
      subst hk
      cases hj
      exact hi'
    · rename_i hk
      apply (h.interfaces k j hj).of_other
      exact fun e he heq => hk (hown e he k heq).symm
  · intro e he k hk
    rw [List.length_set]
    rcases List.mem_append.mp he with hold | hnew
    · exact h.known e hold k hk
    · rw [hown e hnew k hk]
      exact hlt

lemma interfaceEnqueue {r : Relay σ κ} (h : r.Conserves) (index : Nat) (face : Option FaceId)
    (packet : Bytes) (destination : Address) :
    (r.interfaceEnqueue index face packet destination).2.Conserves := by
  unfold Relay.interfaceEnqueue
  split
  · exact h
  · rename_i i hi
    have hconserves := h.interfaces index i hi
    let request : TransmitRequest := ⟨packet, destination, face⟩
    obtain ⟨hinterfaces, hknown⟩ := h.setInterface hi rfl (List.forall_mem_nil _)
      (hconserves.enqueue request)
    have hrefusals : RefusesWhenFull (r.log ++ [.accepted index request (i.enqueue request).1]) := by
      apply h.refusals.append_one
      rintro _ _ _ ⟨⟩
      exact hconserves.enqueue_refuses_iff request
    dsimp only
    split
    · rename_i hroom
      refine ⟨hinterfaces, hknown, ?_, hrefusals⟩
      have hcount : [Event.accepted index request (i.enqueue request).1].countP isRefusal = 0 := by
        simp [isRefusal, request, hroom]
      change r.counters.queueDrops = UInt64.ofNat ((r.log ++ [_]).countP isRefusal)
      rw [List.countP_append, hcount]
      exact h.drops
    · rename_i hroom
      refine ⟨hinterfaces, hknown, ?_, hrefusals⟩
      have hcount : [Event.accepted index request (i.enqueue request).1].countP isRefusal = 1 := by
        simp [isRefusal, request, hroom]
      change r.counters.queueDrops + 1 = UInt64.ofNat ((r.log ++ [_]).countP isRefusal)
      rw [List.countP_append, hcount, UInt64.ofNat_add, ← h.drops]
      rfl

variable [Scheduler σ]

lemma interfaceClearToSend {r : Relay σ κ} (h : r.Conserves) (index : Nat) :
    (r.interfaceClearToSend index).2.Conserves := by
  unfold Relay.interfaceClearToSend
  split
  · exact h
  · rename_i i hi
    have hconserves := h.interfaces index i hi
    split
    · exact h
    · rename_i request i' events hsends
      obtain ⟨report, rfl, hreport, hi'⟩ := hconserves.clearToSend hsends
      have hquiet : ∀ e ∈ report, e.interface? = none := fun e he =>
        interface?_of_not_transport (hreport e he)
      obtain ⟨hinterfaces, hknown⟩ := h.setInterface hi rfl hquiet hi'
      have hoffers : ∀ e ∈ Event.transmitted index request.destination request.packet :: report,
          e.isOffer = false := by
        intro e he
        rcases List.mem_cons.mp he with rfl | he
        · rfl
        · exact isOffer_of_interface? (hquiet e he)
      have hsent : (({ r with interfaces := r.interfaces.set index i' } : Relay σ κ).emitAll
          (.transmitted index request.destination request.packet :: report)).Conserves := by
        refine ⟨hinterfaces, hknown, ?_, h.refusals.append hoffers⟩
        change r.counters.queueDrops = UInt64.ofNat ((r.log ++ _ :: _).countP isRefusal)
        rw [List.countP_append, countP_isRefusal_eq_zero hoffers]
        exact h.drops
      exact hsent.of_still (.reportSent _ request.face request.packet.length)

end Conserves

/-- A face passes its oldest packet to its interface, or nothing happens. -/
lemma faceClearToSend_cases (r : Relay σ κ) (id : FaceId) :
    (r.faceClearToSend id).2 = r ∨
      ∃ f index destination packet rest, r.faces.get? id = some f ∧ f.interface = some index ∧
        f.peer = some destination ∧ f.queue = packet :: rest ∧
        (r.faceClearToSend id).2 =
          (({ r with faces := r.faces.modify id fun _ => { f with queue := rest } }).interfaceEnqueue
            index (some id) packet destination).2 := by
  unfold faceClearToSend
  split
  · exact .inl rfl
  · rename_i f hf
    split
    · rename_i index destination packet f' hindex hpeer hdequeue
      unfold Face.dequeue at hdequeue
      split at hdequeue
      · cases hdequeue
      · rename_i rest hqueue
        cases hdequeue
        exact .inr ⟨f, index, destination, packet, rest, hf, hindex, hpeer, hqueue, rfl⟩
    · exact .inl rfl

/-- What came in at an interface went out or waits, however packets move. -/
lemma Conserves.moves [Scheduler σ] {r r' : Relay σ κ} (h : r.Conserves) (hmoves : Moves r r') :
    r'.Conserves := by
  induction hmoves with
  | still hstill => exact h.of_still hstill
  | joins purpose hf hnew => exact h.of_quiet rfl rfl rfl (by simp [interface?])
  | forwards r id =>
    rcases r.faceClearToSend_cases id with hsame |
      ⟨f, index, destination, packet, rest, -, -, -, -, htaken⟩
    · rwa [hsame]
    · have hrest : ({ r with faces := r.faces.modify id fun _ => { f with queue := rest } } :
          Relay σ κ).Conserves :=
        h.of_quiet rfl rfl (List.append_nil _).symm (by simp)
      rw [htaken]
      exact hrest.interfaceEnqueue index (some id) packet destination
  | sends r index => exact h.interfaceClearToSend index
  | @meets r interface peer hinterface _ _ =>
    rcases r.createFace_cases interface peer with hnone | ⟨id, sought, -, hsought, hcreated⟩
    · rwa [hnone]
    · rw [hcreated]
      refine h.of_quiet rfl rfl rfl ?_
      rcases hsought with rfl | rfl
      · simp
      · simp [interface?]
  | trans _ _ ihm ihr => exact ihr (ihm h)

end Relay

end NamedRelay
