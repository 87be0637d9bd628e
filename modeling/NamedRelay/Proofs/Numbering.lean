import NamedRelay.Proofs.QueueSteps

/-!
# The numbers of faces

In every reachable relay faces stand in the order of their numbers, so no two faces have one number,
and a face that is there is found by its number. `Evolves` lists what happens to a registry on the
way, with the numbers that are given out. Removing faces leaves the others as they were.
-/

namespace NamedRelay

/-- What the registry knows a face by. -/
def Face.registration {σ : Type} (f : Face σ) : FaceId × Option Nat × Option Address :=
  (f.id, f.place)

namespace FaceRegistry

variable {σ : Type}

/-- The faces stand in the order of their numbers, none of which comes after the latest one. -/
structure Numbered (g : FaceRegistry σ) : Prop where
  increasing : (g.faces.map Face.id).Pairwise fun i j => i.number < j.number
  latest : ∀ id ∈ g.faces.map Face.id, id.number ≤ g.latest

namespace Numbered

variable {g g' : FaceRegistry σ}

lemma of_numbers (h : g.Numbered) (hnumbers : g'.faces.map Face.id = g.faces.map Face.id)
    (hlatest : g'.latest = g.latest) : g'.Numbered where
  increasing := by
    rw [hnumbers]
    exact h.increasing
  latest := by
    rw [hnumbers, hlatest]
    exact h.latest

lemma erase (h : g.Numbered) (id : FaceId) : (g.erase id).Numbered := by
  have hsub : ((g.erase id).faces.map Face.id).Sublist (g.faces.map Face.id) :=
    List.filter_sublist.map Face.id
  exact ⟨h.increasing.sublist hsub, fun j hj => h.latest j (hsub.subset hj)⟩

lemma insert (h : g.Numbered) {face : Face σ} (hnew : g.nextId? = some face.id) :
    (g.insert face).Numbered := by
  have hnumber := number_of_nextId? hnew
  have hnumbers : (g.insert face).faces.map Face.id = g.faces.map Face.id ++ [face.id] := by
    simp [FaceRegistry.insert]
  have hlast : (g.insert face).latest = face.id.number := rfl
  constructor
  · rw [hnumbers, List.pairwise_append]
    refine ⟨h.increasing, List.pairwise_singleton _ _, ?_⟩
    intro id hid new hnew'
    have hle := UInt32.le_iff_toNat_le.mp (h.latest id hid)
    rw [List.mem_singleton.mp hnew', UInt32.lt_iff_toNat_lt]
    omega
  · intro id hid
    rw [hnumbers, List.mem_append, List.mem_singleton] at hid
    rw [hlast, UInt32.le_iff_toNat_le]
    rcases hid with hold | rfl
    · have hle := UInt32.le_iff_toNat_le.mp (h.latest id hold)
      omega
    · exact Nat.le_refl _

/-- No two faces have one number. -/
lemma nodup (h : g.Numbered) : (g.faces.map Face.id).Nodup := by
  refine h.increasing.imp ?_
  rintro i j hlt rfl
  exact UInt32.lt_irrefl _ hlt

lemma eq_of_id (h : g.Numbered) {f f' : Face σ} (hf : f ∈ g.faces) (hf' : f' ∈ g.faces)
    (hid : f.id = f'.id) : f = f' :=
  List.inj_on_of_nodup_map h.nodup hf hf' hid

/-- A face is found by its number. -/
lemma get?_of_mem (h : g.Numbered) {f : Face σ} (hf : f ∈ g.faces) : g.get? f.id = some f := by
  obtain ⟨f', hf'⟩ := Option.isSome_iff_exists.mp ((g.isSome_get?_iff f.id).mpr ⟨f, hf, rfl⟩)
  rw [hf', h.eq_of_id (mem_of_get? hf') hf (id_of_get? hf')]

/-- The numbers tell the faces. -/
lemma map_registration (h : g.Numbered) :
    g.faces.map Face.registration =
      (g.faces.map Face.id).filterMap fun id => (g.get? id).map Face.registration := by
  rw [List.filterMap_map, ← List.filterMap_eq_map]
  apply List.filterMap_congr
  intro f hf
  change some f.registration = (g.get? f.id).map Face.registration
  rw [h.get?_of_mem hf]
  rfl

/-- With the same numbers, and the same place to each of them, the faces are the same. -/
lemma map_registration_of_places (h : g.Numbered)
    (hnumbers : g'.faces.map Face.id = g.faces.map Face.id) (hlatest : g'.latest = g.latest)
    (hplaces : ∀ id f, g.get? id = some f → ∃ f', g'.get? id = some f' ∧ f'.place = f.place) :
    g'.faces.map Face.registration = g.faces.map Face.registration := by
  rw [(h.of_numbers hnumbers hlatest).map_registration, h.map_registration, hnumbers]
  apply List.filterMap_congr
  intro id hid
  obtain ⟨f, hf, rfl⟩ := List.mem_map.mp hid
  obtain ⟨f', hf', hplace⟩ := hplaces f.id f (h.get?_of_mem hf)
  rw [h.get?_of_mem hf, hf']
  exact congrArg some (Prod.ext (id_of_get? hf') hplace)

end Numbered

/-- The same faces, in the same order, as far as the registry knows them. -/
structure SameFaces (g g' : FaceRegistry σ) : Prop where
  registrations : g'.faces.map Face.registration = g.faces.map Face.registration
  latest : g'.latest = g.latest

namespace SameFaces

variable {g m g' : FaceRegistry σ}

lemma refl (g : FaceRegistry σ) : g.SameFaces g :=
  ⟨rfl, rfl⟩

lemma trans (h : g.SameFaces m) (h' : m.SameFaces g') : g.SameFaces g' :=
  ⟨h'.registrations.trans h.registrations, h'.latest.trans h.latest⟩

lemma numbers (h : g.SameFaces g') : g'.faces.map Face.id = g.faces.map Face.id := by
  have hfst := congrArg (List.map Prod.fst) h.registrations
  rw [List.map_map, List.map_map] at hfst
  exact hfst

lemma places (h : g.SameFaces g') : g'.faces.map Face.place = g.faces.map Face.place := by
  have hsnd := congrArg (List.map Prod.snd) h.registrations
  rw [List.map_map, List.map_map] at hsnd
  exact hsnd

lemma numbered (h : g.SameFaces g') (hg : g.Numbered) : g'.Numbered :=
  hg.of_numbers h.numbers h.latest

end SameFaces

/-! ## What happens to a registry -/

/-- What happens to a registry, and the numbers that are given out meanwhile: faces keep their
numbers and places, the next number goes to a face in a place where nobody is, or a face goes. -/
inductive Evolves : FaceRegistry σ → List FaceId → FaceRegistry σ → Prop where
  | keeps {g g' : FaceRegistry σ} : g.SameFaces g' → Evolves g [] g'
  | creates {g : FaceRegistry σ} {face : Face σ} : g.nextId? = some face.id →
      g.findPeer? face.interface face.peer = none → face.interface.isSome = face.peer.isSome →
      Evolves g [face.id] (g.insert face)
  | removes (g : FaceRegistry σ) (id : FaceId) : Evolves g [] (g.erase id)
  | trans {g m g' : FaceRegistry σ} {ids ids' : List FaceId} :
      Evolves g ids m → Evolves m ids' g' → Evolves g (ids ++ ids') g'

lemma Evolves.refl (g : FaceRegistry σ) : g.Evolves [] g :=
  .keeps (.refl g)

lemma Evolves.numbered {g g' : FaceRegistry σ} {ids : List FaceId} (h : g.Evolves ids g')
    (hg : g.Numbered) : g'.Numbered := by
  induction h with
  | keeps hsame => exact hsame.numbered hg
  | creates hnew _ _ => exact hg.insert hnew
  | removes g id => exact hg.erase id
  | trans _ _ ihm ihr => exact ihr (ihm hg)

end FaceRegistry

namespace Relay

variable {σ κ : Type}

/-! ## Faces on the way -/

/-- Faces that keep their numbers and places are the same. -/
lemma sameFaces_of_places {r r' : Relay σ κ} (h : r.faces.Numbered)
    (hnumbers : r'.faces.faces.map Face.id = r.faces.faces.map Face.id)
    (hlatest : r'.faces.latest = r.faces.latest)
    (hplaces : ∀ id f, r.faces.get? id = some f →
      ∃ f', r'.faces.get? id = some f' ∧ f'.place = f.place) : r.faces.SameFaces r'.faces :=
  ⟨h.map_registration_of_places hnumbers hlatest hplaces, hlatest⟩

lemma KeepsFaces.places {r r' : Relay σ κ} (h : r.KeepsFaces r') (id : FaceId) (f : Face σ)
    (hf : r.faces.get? id = some f) : ∃ f', r'.faces.get? id = some f' ∧ f'.place = f.place := by
  obtain ⟨f', hf', hkey⟩ := h.faces hf
  exact ⟨f', hf', Prod.ext (congrArg FaceKey.interface hkey) (congrArg FaceKey.peer hkey)⟩

lemma Still.sameFaces {r r' : Relay σ κ} (hstill : r.Still r') (h : r.faces.Numbered) :
    r.faces.SameFaces r'.faces := by
  refine sameFaces_of_places h hstill.numbers hstill.latest fun id f hf => ?_
  have hline := hstill.faces id
  rw [hf] at hline
  obtain ⟨f', hf', hsame⟩ := Option.map_eq_some_iff.mp hline
  exact ⟨f', hf', Prod.ext (congrArg FaceLine.interface hsame) (congrArg FaceLine.peer hsame)⟩

lemma queue_sameFaces {r : Relay σ κ} (h : r.faces.Numbered) (purpose : Purpose) {f : Face σ}
    (hf : r.faces.get? f.id = some f) (packet : Bytes) :
    r.faces.SameFaces (r.queue purpose f packet).faces := by
  have hnumbers : (r.queue purpose f packet).faces.faces.map Face.id = r.faces.faces.map Face.id :=
    r.faces.map_id_modify fun _ _ => Face.id_eq_of_key_eq (f.key_enqueue packet)
  exact sameFaces_of_places h hnumbers rfl (r.queue_keeps purpose hf packet).places

lemma faceClearToSend_sameFaces {r : Relay σ κ} (h : r.faces.Numbered) (id : FaceId) :
    r.faces.SameFaces (r.faceClearToSend id).2.faces := by
  rcases r.faceClearToSend_cases id with hsame |
    ⟨f, index, destination, packet, rest, hf, -, -, -, htaken⟩
  · rw [hsame]
    exact .refl r.faces
  · obtain rfl := FaceRegistry.id_of_get? hf
    obtain ⟨hfaces, -⟩ := interfaceEnqueue_faces
      { r with faces := r.faces.modify f.id fun _ => { f with queue := rest } } index
      (some f.id) packet destination
    refine sameFaces_of_places h ?_ ?_ (r.faceClearToSend_sends f.id).places
    · rw [htaken, hfaces]
      exact r.faces.map_id_modify fun _ _ => rfl
    · rw [htaken, hfaces]
      rfl

section

variable [Scheduler σ]

lemma interfaceClearToSend_sameFaces {r : Relay σ κ} (h : r.faces.Numbered) (index : Nat) :
    r.faces.SameFaces (r.interfaceClearToSend index).2.faces := by
  unfold interfaceClearToSend
  split
  · exact .refl r.faces
  · rename_i i _
    split
    · exact .refl r.faces
    · rename_i request i' events _
      have hstill := Still.reportSent
        (({ r with interfaces := r.interfaces.set index i' } : Relay σ κ).emitAll events)
        request.face request.packet.length
      exact hstill.sameFaces h

lemma faces_evolve_of_moves {r r' : Relay σ κ} (hmoves : Moves r r') (h : r.faces.Numbered) :
    ∃ ids, r.faces.Evolves ids r'.faces := by
  induction hmoves with
  | still hstill => exact ⟨[], .keeps (hstill.sameFaces h)⟩
  | joins purpose hf _ =>
    obtain rfl := FaceRegistry.id_of_get? hf
    exact ⟨[], .keeps (queue_sameFaces h purpose hf _)⟩
  | forwards r id => exact ⟨[], .keeps (faceClearToSend_sameFaces h id)⟩
  | sends r index => exact ⟨[], .keeps (interfaceClearToSend_sameFaces h index)⟩
  | @meets r interface peer _ hsides hnobody =>
    rcases r.createFace_cases interface peer with hnone | ⟨id, sought, hnew, -, hcreated⟩
    · rw [hnone]
      exact ⟨[], .refl r.faces⟩
    · let face : Face σ := r.newFace id interface peer
      have hcreates : r.faces.Evolves [face.id] (r.faces.insert face) :=
        .creates hnew hnobody hsides
      rw [hcreated]
      exact ⟨[face.id], hcreates⟩
  | trans _ _ ihm ihr =>
    obtain ⟨ids, hm⟩ := ihm h
    obtain ⟨ids', hr⟩ := ihr (hm.numbered h)
    exact ⟨ids ++ ids', hm.trans hr⟩

lemma numbered_of_moves {r r' : Relay σ κ} (hmoves : Moves r r') (h : r.faces.Numbered) :
    r'.faces.Numbered := by
  obtain ⟨ids, hevolves⟩ := faces_evolve_of_moves hmoves h
  exact hevolves.numbered h

end

/-! ## Removing faces -/

/-- Removing a face that is not there removes nothing. -/
lemma faces_removeFace (r : Relay σ κ) (id : FaceId) :
    (r.removeFace id).2.faces = r.faces.erase id := by
  unfold removeFace
  split
  · rename_i hgone
    have hothers : ∀ f ∈ r.faces.faces, (f.id != id) = true := by
      intro f hf
      have hother := List.find?_eq_none.mp hgone f hf
      simpa using hother
    unfold FaceRegistry.erase
    rw [List.filter_eq_self.mpr hothers]
  · rfl

lemma faces_removeFaces (r : Relay σ κ) (ids : List FaceId) :
    (r.removeFaces ids).faces.faces = r.faces.faces.filter fun f => !ids.contains f.id := by
  induction ids generalizing r with
  | nil => exact (List.filter_eq_self.mpr fun _ _ => rfl).symm
  | cons id ids ih =>
    rw [removeFaces_cons, ih, faces_removeFace]
    unfold FaceRegistry.erase
    rw [List.filter_filter]
    congr 1
    funext f
    by_cases hf : f.id = id
    · simp [hf]
    · simp [hf]

lemma faces_evolve_removeFaces (r : Relay σ κ) (ids : List FaceId) :
    r.faces.Evolves [] (r.removeFaces ids).faces := by
  induction ids generalizing r with
  | nil => exact .refl r.faces
  | cons id ids ih =>
    have hone := FaceRegistry.Evolves.removes r.faces id
    rw [← faces_removeFace] at hone
    rw [removeFaces_cons]
    exact hone.trans (ih (r.removeFace id).2)

lemma Requeues.places {r r' : Relay σ κ} {f : Face σ} {queue : List Bytes}
    (h : r.Requeues r' f queue) (id : FaceId) (g : Face σ) (hg : r.faces.get? id = some g) :
    ∃ g', r'.faces.get? id = some g' ∧ g'.place = g.place := by
  by_cases hid : id = f.id
  · subst hid
    rw [h.face] at hg
    cases hg
    exact ⟨_, h.self, rfl⟩
  · exact ⟨g, (h.other hid).trans hg, rfl⟩

variable [Scheduler σ] [CacheStrategy κ]

lemma faces_evolve_run {r : Relay σ κ} (h : r.faces.Numbered) (op : Operation σ κ) :
    ∃ ids, r.faces.Evolves ids (op.run r).faces := by
  cases r.course op with
  | @moves _ m gone _ hmoves hrun =>
    obtain ⟨ids, hm⟩ := faces_evolve_of_moves hmoves h
    rw [hrun]
    exact ⟨_, hm.trans (m.faces_evolve_removeFaces gone)⟩
  | offers index face packet destination =>
    obtain ⟨hfaces, -⟩ := r.interfaceEnqueue_faces index face packet destination
    change ∃ ids, r.faces.Evolves ids (r.interfaceEnqueue index face packet destination).2.faces
    rw [hfaces]
    exact ⟨[], .refl r.faces⟩
  | adds config =>
    change ∃ ids, r.faces.Evolves ids (r.addInterface config).2.faces
    unfold addInterface
    split
    · exact ⟨[], .refl r.faces⟩
    · exact ⟨[], .refl r.faces⟩
  | changes j hdirect =>
    refine ⟨[], .keeps (sameFaces_of_places h hdirect.numbers hdirect.latest ?_)⟩
    cases hface : r.faces.get? j with
    | none =>
      obtain ⟨hsame, -⟩ := hdirect.gone hface
      exact fun id f hf => ⟨f, (hsame id).trans hf, rfl⟩
    | some f =>
      obtain ⟨queue, hrequeued, -⟩ := hdirect.there f hface
      exact hrequeued.places

lemma faces_evolve_runAll {r : Relay σ κ} (h : r.faces.Numbered) (ops : List (Operation σ κ)) :
    ∃ ids, r.faces.Evolves ids (Operation.runAll ops r).faces := by
  induction ops generalizing r with
  | nil => exact ⟨[], .refl r.faces⟩
  | cons op ops ih =>
    obtain ⟨ids, hone⟩ := faces_evolve_run h op
    obtain ⟨ids', hrest⟩ := ih (hone.numbered h)
    exact ⟨ids ++ ids', hone.trans hrest⟩

end Relay

lemma Reachable.numbered {σ κ : Type} [Scheduler σ] [CacheStrategy κ] {r : Relay σ κ}
    (h : Reachable r) : r.faces.Numbered := by
  induction h with
  | create config clock digest hnew =>
    unfold Relay.create at hnew
    split at hnew
    · cases hnew
    · cases hnew
      exact ⟨List.Pairwise.nil, List.forall_mem_nil _⟩
  | run op _ ih =>
    obtain ⟨ids, hevolves⟩ := Relay.faces_evolve_run ih op
    exact hevolves.numbered ih

end NamedRelay
