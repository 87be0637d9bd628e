import NamedRelay.Proofs.QueueSteps

/-!
# What schedulers are asked and told

Everything that a scheduler is asked or told is an event. The state of a scheduler goes along with
the events: in each state it gives the answer that the event holds, and goes on from there.
-/

namespace NamedRelay

/-- The scheduler that is asked or told something. -/
def Event.governor? : Event → Option Governor
  | sendRequested g _ _ _ => some g
  | sendReported g _ _ => some g
  | _ => none

/-- The state of a scheduler goes along with the events, and its answers are those in the events. -/
inductive Consults {σ : Type} [Scheduler σ] (g : Governor) :
    Option σ → List Event → Option σ → Prop where
  | start (s : Option σ) : Consults g s [] s
  | asked {s : σ} {s' : Option σ} {count length : Nat} {events : List Event} :
      Consults g (some (Scheduler.requestToSend s count length).2) events s' →
      Consults g (some s)
        (.sendRequested g count length (Scheduler.requestToSend s count length).1 :: events) s'
  | told {s : σ} {s' : Option σ} {count length : Nat} {events : List Event} :
      Consults g (some (Scheduler.sent s count length)) events s' →
      Consults g (some s) (.sendReported g count length :: events) s'
  | other {s s' : Option σ} {event : Event} {events : List Event} :
      event.governor? ≠ some g → Consults g s events s' → Consults g s (event :: events) s'

namespace Consults

variable {σ : Type} [Scheduler σ] {g : Governor} {s s' s'' : Option σ} {events new : List Event}

lemma append (h : Consults g s events s') (hnew : Consults g s' new s'') :
    Consults g s (events ++ new) s'' := by
  induction h with
  | start => exact hnew
  | asked _ ih => exact asked (ih hnew)
  | told _ ih => exact told (ih hnew)
  | other hother _ ih => exact other hother (ih hnew)

lemma of_others (hothers : ∀ event ∈ events, event.governor? ≠ some g) (s : Option σ) :
    Consults g s events s := by
  induction events with
  | nil => exact start s
  | cons event events ih =>
    have hevents := ih fun e he => hothers e (List.mem_cons_of_mem event he)
    exact other (hothers event List.mem_cons_self) hevents

/-- No scheduler comes or goes. -/
lemma isSome_eq (h : Consults g s events s') : s'.isSome = s.isSome := by
  induction h with
  | start => rfl
  | asked _ ih => exact ih
  | told _ ih => exact ih
  | other _ _ ih => exact ih

end Consults

/-- A face without its scheduler. -/
def Face.ungoverned {σ : Type} (f : Face σ) : Face σ :=
  { f with scheduler := none }

namespace Relay

variable {σ κ : Type}

def schedulerOf (r : Relay σ κ) : Governor → Option σ
  | .face id => (r.faces.get? id).bind Face.scheduler
  | .interface k => r.interfaces[k]?.bind Interface.scheduler

def isGoverned (r : Relay σ κ) (g : Governor) : Bool :=
  (r.schedulerOf g).isSome

lemma schedulerOf_face {r : Relay σ κ} {f : Face σ} (hf : r.faces.get? f.id = some f) :
    r.schedulerOf (.face f.id) = f.scheduler := by
  unfold schedulerOf
  dsimp only
  rw [hf, Option.bind_some]

lemma schedulerOf_interface {r : Relay σ κ} {k : Nat} {i : Interface σ}
    (hi : r.interfaces[k]? = some i) : r.schedulerOf (.interface k) = i.scheduler := by
  unfold schedulerOf
  dsimp only
  rw [hi, Option.bind_some]

/-- What the schedulers are told when a packet has left, where there are any. -/
def reports (r : Relay σ κ) (governors : List Governor) (length : Nat) : List Event :=
  (governors.filter r.isGoverned).map fun g => .sendReported g 1 length

lemma reports_append (r : Relay σ κ) (governors others : List Governor) (length : Nat) :
    r.reports (governors ++ others) length =
      r.reports governors length ++ r.reports others length := by
  unfold reports
  rw [List.filter_append, List.map_append]

lemma reports_singleton (r : Relay σ κ) (g : Governor) (length : Nat) :
    r.reports [g] length = if r.isGoverned g then [.sendReported g 1 length] else [] := by
  unfold reports
  cases hg : r.isGoverned g <;> simp [hg]

lemma eq_of_mem_reports {r : Relay σ κ} {g : Governor} {length : Nat} {event : Event}
    (h : event ∈ r.reports [g] length) : event = .sendReported g 1 length := by
  rw [reports_singleton] at h
  split at h
  · exact List.mem_singleton.mp h
  · cases h

variable [Scheduler σ]

lemma reports_singleton_consults (r : Relay σ κ) (g : Governor) (length : Nat) :
    Consults g (r.schedulerOf g) (r.reports [g] length)
      (Scheduler.noteOne (r.schedulerOf g) length) := by
  rw [reports_singleton]
  unfold isGoverned
  cases r.schedulerOf g with
  | none => exact .start none
  | some s => exact .told (.start _)

/-- The interfaces may change. The rest stays as it is, but for what schedulers are asked and
told. -/
structure Consulting (r : Relay σ κ) (events : List Event) (r' : Relay σ κ) : Prop where
  rest : r' = { r with faces := r'.faces, interfaces := r'.interfaces, log := r.log ++ events }
  latest : r'.faces.latest = r.faces.latest
  faces : r'.faces.faces.map Face.ungoverned = r.faces.faces.map Face.ungoverned
  interfaces : r'.interfaces.length = r.interfaces.length
  consulted : ∀ g, Consults g (r.schedulerOf g) events (r'.schedulerOf g)

namespace Consulting

variable {r r' r'' : Relay σ κ} {events new : List Event}

lemma refl (r : Relay σ κ) : r.Consulting [] r where
  rest := by rw [List.append_nil]
  latest := rfl
  faces := rfl
  interfaces := rfl
  consulted g := .start (r.schedulerOf g)

lemma trans (h : r.Consulting events r') (h' : r'.Consulting new r'') :
    r.Consulting (events ++ new) r'' where
  rest := by
    rw [h'.rest, h.rest, List.append_assoc]
  latest := h'.latest.trans h.latest
  faces := h'.faces.trans h.faces
  interfaces := h'.interfaces.trans h.interfaces
  consulted g := (h.consulted g).append (h'.consulted g)

lemma isGoverned_eq (h : r.Consulting events r') : r'.isGoverned = r.isGoverned :=
  funext fun g => (h.consulted g).isSome_eq

lemma reports_eq (h : r.Consulting events r') : r'.reports = r.reports := by
  unfold reports
  rw [h.isGoverned_eq]

lemma log (h : r.Consulting events r') : r'.log = r.log ++ events := by
  rw [h.rest]

/-- An interface changes along with events of its own. -/
lemma setInterface {k : Nat} {i i' : Interface σ} (hi : r.interfaces[k]? = some i)
    (hown : Consults (.interface k) i.scheduler events i'.scheduler)
    (honly : ∀ event ∈ events, ∀ g, event.governor? = some g → g = .interface k) :
    r.Consulting events (({ r with interfaces := r.interfaces.set k i' }).emitAll events) where
  rest := rfl
  latest := rfl
  faces := rfl
  interfaces := List.length_set
  consulted g := by
    by_cases hg : g = .interface k
    · obtain ⟨hlt, hget⟩ := List.getElem?_eq_some_iff.mp hi
      subst hg
      simpa [schedulerOf, emitAll, hlt, hget] using hown
    · have hsame : (({ r with interfaces := r.interfaces.set k i' }).emitAll events).schedulerOf g =
          r.schedulerOf g := by
        cases g with
        | face id => rfl
        | interface j =>
          have hne : k ≠ j := fun h => hg (h ▸ rfl)
          simp [schedulerOf, emitAll, List.getElem?_set_ne hne]
      rw [hsame]
      exact .of_others (fun event he hgovernor => hg (honly event he g hgovernor)) _

/-- The scheduler of a face changes along with events of its own. -/
lemma setFace {f : Face σ} {change : Face σ → Face σ} (hf : r.faces.get? f.id = some f)
    (hown : Consults (.face f.id) f.scheduler events (change f).scheduler)
    (honly : ∀ event ∈ events, ∀ g, event.governor? = some g → g = .face f.id)
    (hungoverned : ∀ h, (change h).ungoverned = h.ungoverned) :
    r.Consulting events (({ r with faces := r.faces.modify f.id change }).emitAll events) where
  rest := rfl
  latest := rfl
  faces := by
    change ((r.faces.faces.map fun h => if h.id = f.id then change h else h).map Face.ungoverned) = _
    rw [List.map_map]
    apply List.map_congr_left
    intro h _
    dsimp only [Function.comp]
    split
    · exact hungoverned h
    · rfl
  interfaces := rfl
  consulted g := by
    have hid : ∀ h, h.id = f.id → (change h).id = f.id := fun h hh =>
      (congrArg Face.id (hungoverned h)).trans hh
    by_cases hg : g = .face f.id
    · subst hg
      simpa [schedulerOf, emitAll, hf, FaceRegistry.get?_modify_self hf hid] using hown
    · have hsame :
          (({ r with faces := r.faces.modify f.id change }).emitAll events).schedulerOf g =
            r.schedulerOf g := by
        cases g with
        | face id =>
          have hne : id ≠ f.id := fun h => hg (h ▸ rfl)
          simp [schedulerOf, emitAll, r.faces.get?_modify_other hid hne]
        | interface k => rfl
      rw [hsame]
      exact .of_others (fun event he hgovernor => hg (honly event he g hgovernor)) _

end Consulting

/-- The face that a packet comes from is told that it has left, if it is still there. -/
lemma reportSent_consulting (r : Relay σ κ) (face : Option FaceId) (length : Nat) :
    r.Consulting (r.reports (face.toList.map .face) length) (r.reportSent face length) := by
  cases hface : face.bind r.faces.get? with
  | none =>
    have hnone : r.reports (face.toList.map .face) length = [] := by
      cases face with
      | none => rfl
      | some id =>
        rw [Option.bind_some] at hface
        simp [reports, isGoverned, schedulerOf, hface]
    have hsame : r.reportSent face length = r := by
      unfold reportSent
      rw [hface]
    rw [hnone, hsame]
    exact .refl r
  | some f =>
    obtain ⟨id, rfl, hf⟩ := Option.bind_eq_some_iff.mp hface
    obtain rfl := FaceRegistry.id_of_get? hf
    have htold := r.reports_singleton_consults (.face f.id) length
    have hone := r.reports_singleton (.face f.id) length
    rw [isGoverned, schedulerOf_face hf] at hone
    rw [schedulerOf_face hf] at htold
    change r.Consulting (r.reports [.face f.id] length) _
    unfold reportSent
    rw [hface]
    dsimp only
    split
    · rename_i hs
      rw [if_pos hs] at hone
      rw [hone] at htold ⊢
      refine .setFace hf htold ?_ fun _ => rfl
      intro event hevent g hg
      rw [List.mem_singleton.mp hevent] at hg
      exact (Option.some.inj hg).symm
    · rename_i hs
      rw [if_neg hs] at hone
      rw [hone]
      exact .refl r

end Relay

end NamedRelay
