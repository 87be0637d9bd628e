import NamedRelay.Proofs.LiveFaces
import NamedRelay.Proofs.Numbering

/-!
# The registry of faces along a run

Numbers are given out one after the other, and a number that has gone with its face never comes
back. Each place in the network has one face at most, and the face of a peer is created only where
there is none. The order of the numbers is what a search by halving relies on: `halve` is that
search, and it finds what `get?`, `modify` and `erase` find by going through all faces.
-/

namespace NamedRelay

namespace FaceRegistry

variable {σ : Type}

/-! ## Finding a face by halving -/

/-- Where the search for a number ends, among `size` places from `base` on. Half of the places are
left out at a time: the upper half if it starts behind the number. -/
def halve (g : FaceRegistry σ) (id : FaceId) (base size : Nat) : Nat :=
  if size ≤ 1 then base
  else
    let middle := base + size / 2
    let isBehind := (g.faces[middle]?).any fun f => id.number < f.id.number
    g.halve id (if isBehind then base else middle) (size - size / 2)
termination_by size

/-- The place of the face with a number. -/
def position? (g : FaceRegistry σ) (id : FaceId) : Option Nat :=
  let i := g.halve id 0 g.count
  if (g.faces[i]?).map Face.id = some id then some i else none

namespace Numbered

variable {g : FaceRegistry σ}

lemma number_lt (h : g.Numbered) {i j : Nat} {f f' : Face σ} (hij : i < j)
    (hf : g.faces[i]? = some f) (hf' : g.faces[j]? = some f') : f.id.number < f'.id.number := by
  obtain ⟨hi, rfl⟩ := List.getElem?_eq_some_iff.mp hf
  obtain ⟨hj, rfl⟩ := List.getElem?_eq_some_iff.mp hf'
  have hlt := List.pairwise_iff_getElem.mp h.increasing i j (by simpa using hi) (by simpa using hj)
    hij
  simpa using hlt

/-- A place that holds the number stays among those that are left. -/
lemma halve_eq (h : g.Numbered) {i : Nat} {f : Face σ} (hf : g.faces[i]? = some f) (base size : Nat)
    (hbase : base ≤ i) (hi : i < base + size) (hsize : base + size ≤ g.count) :
    g.halve f.id base size = i := by
  induction size using Nat.strong_induction_on generalizing base with
  | h size ih =>
    unfold halve
    split
    · omega
    · rename_i hmany
      have hmiddle : base + size / 2 < g.faces.length := by
        unfold count at hsize
        omega
      have hget := List.getElem?_eq_getElem hmiddle
      dsimp only
      rw [hget, Option.any_some]
      by_cases hbehind : f.id.number < g.faces[base + size / 2].id.number
      · rw [if_pos (decide_eq_true hbehind)]
        have hlt : i < base + size / 2 := by
          by_contra hge
          rcases Nat.lt_or_eq_of_le (Nat.le_of_not_lt hge) with hgt | rfl
          · exact UInt32.lt_asymm hbehind (h.number_lt hgt hget hf)
          · rw [hget] at hf
            cases hf
            exact UInt32.lt_irrefl _ hbehind
        exact ih _ (by omega) base hbase (by omega) (by omega)
      · rw [if_neg (by simpa using hbehind)]
        have hle : base + size / 2 ≤ i := by
          by_contra hlt
          exact hbehind (h.number_lt (Nat.lt_of_not_le hlt) hf hget)
        exact ih _ (by omega) _ hle (by omega) (by omega)

lemma position?_eq_some_iff (h : g.Numbered) (id : FaceId) (i : Nat) :
    g.position? id = some i ↔ (g.faces[i]?).map Face.id = some id := by
  unfold position?
  dsimp only
  constructor
  · intro hposition
    split at hposition
    · rename_i hid
      cases hposition
      exact hid
    · cases hposition
  · intro hid
    obtain ⟨f, hf, rfl⟩ := Option.map_eq_some_iff.mp hid
    obtain ⟨hi, -⟩ := List.getElem?_eq_some_iff.mp hf
    rw [h.halve_eq hf 0 g.count (Nat.zero_le i) (by unfold count; omega) (by omega), if_pos hid]

/-- The faces before and behind the one that is found have other numbers. -/
lemma exists_split (h : g.Numbered) {id : FaceId} {i : Nat} (hi : g.position? id = some i) :
    ∃ before f after, g.faces = before ++ f :: after ∧ before.length = i ∧ f.id = id ∧
      ∀ f' ∈ before ++ after, f'.id ≠ id := by
  obtain ⟨f, hf, rfl⟩ := Option.map_eq_some_iff.mp ((h.position?_eq_some_iff id i).mp hi)
  obtain ⟨hlt, rfl⟩ := List.getElem?_eq_some_iff.mp hf
  have hsplit : g.faces = g.faces.take i ++ g.faces[i] :: g.faces.drop (i + 1) := by
    rw [List.getElem_cons_drop, List.take_append_drop]
  refine ⟨_, _, _, hsplit, List.length_take_of_le (Nat.le_of_lt hlt), rfl, ?_⟩
  have hnodup := h.nodup
  rw [hsplit, List.map_append, List.map_cons, List.nodup_middle, ← List.map_append,
    List.nodup_cons] at hnodup
  intro f' hf' hid
  exact hnodup.1 (hid ▸ List.mem_map_of_mem hf')

lemma other_of_position?_eq_none (h : g.Numbered) {id : FaceId} (hnone : g.position? id = none) :
    ∀ f ∈ g.faces, f.id ≠ id := by
  intro f hf hid
  obtain ⟨i, hi⟩ := List.mem_iff_getElem?.mp hf
  have hposition := (h.position?_eq_some_iff id i).mpr (by rw [hi, Option.map_some, hid])
  rw [hnone] at hposition
  cases hposition

end Numbered

/-- A change to a number touches no face with another number. -/
lemma map_of_others {faces : List (Face σ)} {id : FaceId} (h : ∀ f ∈ faces, f.id ≠ id)
    (change : Face σ → Face σ) :
    (faces.map fun f => if f.id = id then change f else f) = faces := by
  rw [List.map_congr_left fun f hf => if_neg (h f hf), List.map_id']

lemma filter_of_others {faces : List (Face σ)} {id : FaceId} (h : ∀ f ∈ faces, f.id ≠ id) :
    (faces.filter fun f => f.id != id) = faces :=
  List.filter_eq_self.mpr fun f hf => bne_iff_ne.mpr (h f hf)

namespace Numbered

variable {g : FaceRegistry σ}

lemma get?_eq (h : g.Numbered) (id : FaceId) :
    g.get? id = (g.position? id).bind fun i => g.faces[i]? := by
  cases hposition : g.position? id with
  | none =>
    apply List.find?_eq_none.mpr
    intro f hf
    simpa using h.other_of_position?_eq_none hposition f hf
  | some i =>
    obtain ⟨f, hf, rfl⟩ := Option.map_eq_some_iff.mp ((h.position?_eq_some_iff id i).mp hposition)
    rw [h.get?_of_mem (List.mem_of_getElem? hf)]
    exact hf.symm

lemma modify_eq (h : g.Numbered) (id : FaceId) (change : Face σ → Face σ) :
    g.modify id change =
      (g.position? id).elim g fun i => { g with faces := g.faces.modify i change } := by
  unfold FaceRegistry.modify
  cases hposition : g.position? id with
  | none =>
    rw [map_of_others (h.other_of_position?_eq_none hposition)]
    rfl
  | some i =>
    obtain ⟨before, f, after, hsplit, rfl, hid, hothers⟩ := h.exists_split hposition
    obtain ⟨hbefore, hafter⟩ := List.forall_mem_append.mp hothers
    have hmodify : (before ++ f :: after).modify before.length change =
        before ++ change f :: after := by
      simp [List.modify_eq_take_drop]
    change _ = FaceRegistry.mk _ _
    rw [hsplit, List.map_append, List.map_cons, map_of_others hbefore, map_of_others hafter,
      if_pos hid, hmodify]

lemma erase_eq (h : g.Numbered) (id : FaceId) :
    g.erase id = (g.position? id).elim g fun i => { g with faces := g.faces.eraseIdx i } := by
  unfold FaceRegistry.erase
  cases hposition : g.position? id with
  | none =>
    rw [filter_of_others (h.other_of_position?_eq_none hposition)]
    rfl
  | some i =>
    obtain ⟨before, f, after, hsplit, rfl, hid, hothers⟩ := h.exists_split hposition
    obtain ⟨hbefore, hafter⟩ := List.forall_mem_append.mp hothers
    have herase : (before ++ f :: after).eraseIdx before.length = before ++ after := by
      rw [List.eraseIdx_append_of_length_le (Nat.le_refl _), Nat.sub_self,
        List.eraseIdx_cons_zero]
    change _ = FaceRegistry.mk _ _
    rw [hsplit, List.filter_append, List.filter_cons_of_neg (by simpa using hid),
      filter_of_others hbefore, filter_of_others hafter, herase]

end Numbered

/-- What the search by halving finds is what there is: the one face with the number, which is looked
up, changed in its place, or taken out. -/
structure FoundByHalving (g : FaceRegistry σ) : Prop where
  position : ∀ id i, g.position? id = some i ↔ (g.faces[i]?).map Face.id = some id
  get : ∀ id, g.get? id = (g.position? id).bind fun i => g.faces[i]?
  modify : ∀ id change, g.modify id change =
    (g.position? id).elim g fun i => { g with faces := g.faces.modify i change }
  erase : ∀ id, g.erase id =
    (g.position? id).elim g fun i => { g with faces := g.faces.eraseIdx i }
  found : ∀ id f, g.get? id = some f ↔ f ∈ g.faces ∧ f.id = id

lemma Numbered.foundByHalving {g : FaceRegistry σ} (h : g.Numbered) : g.FoundByHalving where
  position := h.position?_eq_some_iff
  get := h.get?_eq
  modify := h.modify_eq
  erase := h.erase_eq
  found id f := by
    constructor
    · exact fun hf => ⟨mem_of_get? hf, id_of_get? hf⟩
    · rintro ⟨hf, rfl⟩
      exact h.get?_of_mem hf

/-! ## Places in the network -/

/-- The faces stand in the order of their numbers, no two of them in one place, and a face has an
interface exactly if it has a peer. -/
structure Registered (g : FaceRegistry σ) : Prop extends g.Numbered where
  places : (g.faces.map Face.place).Nodup
  sides : ∀ f ∈ g.faces, f.interface.isSome = f.peer.isSome

namespace Registered

variable {g g' : FaceRegistry σ}

lemma eq_of_place (h : g.Registered) {f f' : Face σ} (hf : f ∈ g.faces) (hf' : f' ∈ g.faces)
    (hplace : f.place = f'.place) : f = f' :=
  List.inj_on_of_nodup_map h.places hf hf' hplace

/-- The application has one face at most. -/
lemma eq_of_isLocal (h : g.Registered) {f f' : Face σ} (hf : f ∈ g.faces) (hf' : f' ∈ g.faces)
    (hlocal : f.isLocal = true) (hlocal' : f'.isLocal = true) : f = f' := by
  have hplace : ∀ f ∈ g.faces, f.isLocal = true → f.place = (none, none) := by
    intro f hf hlocal
    have hinterface : f.interface = none := Option.isNone_iff_eq_none.mp hlocal
    have hpeer : f.peer = none := by
      rw [← Option.not_isSome_iff_eq_none, ← h.sides f hf, hinterface]
      exact Bool.false_ne_true
    exact Prod.ext hinterface hpeer
  exact h.eq_of_place hf hf' ((hplace f hf hlocal).trans (hplace f' hf' hlocal').symm)

lemma findPeer?_eq_some_iff (h : g.Registered) (interface : Option Nat) (peer : Option Address)
    (f : Face σ) :
    g.findPeer? interface peer = some f ↔ f ∈ g.faces ∧ f.place = (interface, peer) := by
  unfold findPeer?
  constructor
  · intro hf
    have hplace := List.find?_some hf
    simp only [Bool.and_eq_true, beq_iff_eq] at hplace
    exact ⟨List.mem_of_find?_eq_some hf, Prod.ext hplace.1 hplace.2⟩
  · rintro ⟨hf, hplace⟩
    cases hfound : g.faces.find? fun f => f.interface == interface && f.peer == peer with
    | none =>
      have hother := List.find?_eq_none.mp hfound f hf
      cases hplace
      simp at hother
    | some f' =>
      have hplace' := List.find?_some hfound
      simp only [Bool.and_eq_true, beq_iff_eq] at hplace'
      have hsame : f'.place = f.place := by
        rw [hplace]
        exact Prod.ext hplace'.1 hplace'.2
      rw [h.eq_of_place (List.mem_of_find?_eq_some hfound) hf hsame]

lemma of_sameFaces (h : g.Registered) (hsame : g.SameFaces g') : g'.Registered where
  toNumbered := hsame.numbered h.toNumbered
  places := by
    rw [hsame.places]
    exact h.places
  sides f' hf' := by
    have hmem := List.mem_map_of_mem (f := Face.place) hf'
    rw [hsame.places] at hmem
    obtain ⟨f, hf, hplace⟩ := List.mem_map.mp hmem
    have hinterface : f.interface = f'.interface := congrArg Prod.fst hplace
    have hpeer : f.peer = f'.peer := congrArg Prod.snd hplace
    rw [← hinterface, ← hpeer]
    exact h.sides f hf

lemma insert (h : g.Registered) {face : Face σ} (hnew : g.nextId? = some face.id)
    (hnobody : g.findPeer? face.interface face.peer = none)
    (hsides : face.interface.isSome = face.peer.isSome) : (g.insert face).Registered where
  toNumbered := h.toNumbered.insert hnew
  places := by
    have hfree : face.place ∉ g.faces.map Face.place := by
      intro hmem
      obtain ⟨f, hf, hplace⟩ := List.mem_map.mp hmem
      have hfound := (h.findPeer?_eq_some_iff face.interface face.peer f).mpr ⟨hf, hplace⟩
      rw [hnobody] at hfound
      cases hfound
    unfold FaceRegistry.insert
    rw [List.map_append, List.map_singleton, ← List.concat_eq_append]
    exact List.Nodup.concat hfree h.places
  sides f hf := by
    rcases List.mem_append.mp hf with hold | hmem
    · exact h.sides f hold
    · rw [List.mem_singleton.mp hmem]
      exact hsides

lemma erase (h : g.Registered) (id : FaceId) : (g.erase id).Registered where
  toNumbered := h.toNumbered.erase id
  places := h.places.sublist (List.filter_sublist.map Face.place)
  sides f hf := h.sides f (List.mem_filter.mp hf).1

end Registered

lemma Evolves.registered {g g' : FaceRegistry σ} {ids : List FaceId} (h : g.Evolves ids g')
    (hg : g.Registered) : g'.Registered := by
  induction h with
  | keeps hsame => exact hg.of_sameFaces hsame
  | creates hnew hnobody hsides => exact hg.insert hnew hnobody hsides
  | removes g id => exact hg.erase id
  | trans _ _ ihm ihr => exact ihr (ihm hg)

/-! ## Numbers along a run -/

/-- The numbers that are given out on the way from one registry to another are the next ones, one
after the other. A face that is there at the end was there or got its number on the way, and a
number that was given out before and has gone stays away. -/
structure GivesOut (g : FaceRegistry σ) (ids : List FaceId) (g' : FaceRegistry σ) : Prop where
  evolves : g.Evolves ids g'
  increasing : ids.Pairwise fun i j => i.number < j.number
  numbers : ids.map (fun id => id.number.toNat) = List.range' (g.latest.toNat + 1) ids.length
  latest : g'.latest.toNat = g.latest.toNat + ids.length
  live : ∀ id, (g'.get? id).isSome → (g.get? id).isSome ∨ id ∈ ids
  retired : ∀ id, id.number ≤ g.latest → g.get? id = none → g'.get? id = none

namespace Evolves

variable {g g' : FaceRegistry σ} {ids : List FaceId}

lemma numbers (h : g.Evolves ids g') :
    ids.map (fun id => id.number.toNat) = List.range' (g.latest.toNat + 1) ids.length ∧
      g'.latest.toNat = g.latest.toNat + ids.length := by
  induction h with
  | keeps hsame => exact ⟨rfl, congrArg UInt32.toNat hsame.latest⟩
  | creates hnew _ _ =>
    have hnumber := number_of_nextId? hnew
    exact ⟨congrArg (fun n => [n]) hnumber, hnumber⟩
  | removes _ _ => exact ⟨rfl, rfl⟩
  | @trans g m g' ids ids' _ _ ihm ihr =>
    obtain ⟨hids, hm⟩ := ihm
    obtain ⟨hids', hr⟩ := ihr
    have hstart : m.latest.toNat + 1 = g.latest.toNat + 1 + ids.length := by omega
    constructor
    · rw [List.map_append, hids, hids', hstart, List.length_append, List.range'_append_1]
    · rw [hr, hm, List.length_append, Nat.add_assoc]

lemma live (h : g.Evolves ids g') {id : FaceId} (hid : (g'.get? id).isSome) :
    (g.get? id).isSome ∨ id ∈ ids := by
  induction h with
  | keeps hsame =>
    rw [isSome_get?_iff, ← List.mem_map, hsame.numbers, List.mem_map] at hid
    exact .inl ((isSome_get?_iff _ id).mpr hid)
  | creates _ _ _ =>
    obtain ⟨f, hf⟩ := Option.isSome_iff_exists.mp hid
    rcases get?_insert_cases hf with hold | ⟨-, rfl⟩
    · exact .inl (by rw [hold]; rfl)
    · exact .inr (List.mem_singleton_self _)
  | removes g j =>
    rw [get?_erase] at hid
    split at hid
    · cases hid
    · exact .inl hid
  | trans _ _ ihm ihr =>
    rcases ihr hid with hm | hnew
    · exact (ihm hm).imp_right (List.mem_append_left _)
    · exact .inr (List.mem_append_right _ hnew)

lemma givesOut (h : g.Evolves ids g') : g.GivesOut ids g' where
  evolves := h
  numbers := h.numbers.1
  latest := h.numbers.2
  increasing := by
    have hincreasing : (ids.map fun id => id.number.toNat).Pairwise (· < ·) := by
      rw [h.numbers.1]
      exact List.pairwise_lt_range'
    rw [List.pairwise_map] at hincreasing
    exact hincreasing.imp fun hlt => UInt32.lt_iff_toNat_lt.mpr hlt
  live _ := h.live
  retired id hold hgone := by
    rw [← Option.not_isSome_iff_eq_none]
    intro hlive
    rcases h.live hlive with hthere | hnew
    · rw [hgone] at hthere
      cases hthere
    · have hmem := List.mem_map_of_mem (f := fun id : FaceId => id.number.toNat) hnew
      rw [h.numbers.1, List.mem_range'_1] at hmem
      have hle := UInt32.le_iff_toNat_le.mp hold
      omega

end Evolves

lemma nextId?_eq_none_iff (g : FaceRegistry σ) :
    g.nextId? = none ↔ g.latest.toNat = UInt32.size - 1 := by
  unfold nextId?
  split
  · rename_i hlast
    rw [hlast]
    exact iff_of_true rfl rfl
  · rename_i hlast
    refine iff_of_false nofun fun hsame => hlast ?_
    rw [← hsame]
    exact UInt32.ofNat_toNat.symm

end FaceRegistry

/-! ## Meeting a peer -/

namespace Relay

variable {σ κ : Type}

/-- What comes of asking for the face of a peer. If the place is not there, or no number is left for
a new face in it, nothing changes. A face that is there is found, and only marked as used. Otherwise
one face is created, with the next number, behind the others. -/
structure GetsFace (r : Relay σ κ) (interface : Option Nat) (peer : Option Address) : Prop where
  nowhere : ∀ e, r.interfaceFor interface peer = .error e →
    r.getFace interface peer = (.error e, r)
  known : ∀ place, r.interfaceFor interface peer = .ok place →
    ∀ f ∈ r.faces.faces, f.place = (place, peer) →
      r.getFace interface peer = (.ok f.id, r.touchFace f.id r.clock)
  stranger : ∀ place, r.interfaceFor interface peer = .ok place →
    (∀ f ∈ r.faces.faces, f.place ≠ (place, peer)) → r.faces.latest.toNat ≠ UInt32.size - 1 →
      ∃ face, face.place = (place, peer) ∧ face.id.number.toNat = r.faces.latest.toNat + 1 ∧
        (r.getFace interface peer).1 = .ok face.id ∧
        (r.getFace interface peer).2.faces = ⟨r.faces.faces ++ [face], face.id.number⟩
  exhausted : ∀ place, r.interfaceFor interface peer = .ok place →
    (∀ f ∈ r.faces.faces, f.place ≠ (place, peer)) → r.faces.latest.toNat = UInt32.size - 1 →
      r.getFace interface peer = (.error (.capacityExceeded .faceIds (UInt32.size - 1)), r)

lemma getFace_of_known {r : Relay σ κ} (h : r.faces.Registered) {interface place : Option Nat}
    {peer : Option Address} (hplace : r.interfaceFor interface peer = .ok place) {f : Face σ}
    (hf : f ∈ r.faces.faces) (hthere : f.place = (place, peer)) :
    r.getFace interface peer = (.ok f.id, r.touchFace f.id r.clock) := by
  unfold getFace
  rw [hplace]
  dsimp only
  rw [(h.findPeer?_eq_some_iff place peer f).mpr ⟨hf, hthere⟩]

lemma getFace_of_stranger {r : Relay σ κ} (h : r.faces.Registered) {interface place : Option Nat}
    {peer : Option Address} (hplace : r.interfaceFor interface peer = .ok place)
    (hnobody : ∀ f ∈ r.faces.faces, f.place ≠ (place, peer)) :
    r.getFace interface peer = r.createFace place peer := by
  have hnone : r.faces.findPeer? place peer = none := by
    cases hfound : r.faces.findPeer? place peer with
    | none => rfl
    | some f =>
      obtain ⟨hf, hthere⟩ := (h.findPeer?_eq_some_iff place peer f).mp hfound
      exact absurd hthere (hnobody f hf)
  unfold getFace
  rw [hplace]
  dsimp only
  rw [hnone]

lemma getsFace {r : Relay σ κ} (h : r.faces.Registered) (interface : Option Nat)
    (peer : Option Address) : r.GetsFace interface peer where
  nowhere e he := by
    unfold getFace
    rw [he]
  known place hplace f hf hthere := getFace_of_known h hplace hf hthere
  stranger place hplace hnobody hleft := by
    rw [getFace_of_stranger h hplace hnobody]
    rcases r.createFace_cases place peer with hnone | ⟨id, sought, hnew, -, hcreated⟩
    · cases hnext : r.faces.nextId? with
      | none => exact absurd (r.faces.nextId?_eq_none_iff.mp hnext) hleft
      | some id =>
        unfold createFace at hnone
        rw [hnext] at hnone
        cases congrArg Prod.fst hnone
    · rw [hcreated]
      exact ⟨r.newFace id place peer, rfl, FaceRegistry.number_of_nextId? hnew, rfl, rfl⟩
  exhausted place hplace hnobody hlast := by
    rw [getFace_of_stranger h hplace hnobody]
    unfold createFace
    rw [r.faces.nextId?_eq_none_iff.mpr hlast]

/-- The interface of a face that is there is there, so its peer is found on it. -/
lemma interfaceFor_of_mem {r : Relay σ κ} (hl : r.Linked) (h : r.faces.Registered) {f : Face σ}
    (hf : f ∈ r.faces.faces) : r.interfaceFor f.interface f.peer = .ok f.interface := by
  have hsides := h.sides f hf
  unfold interfaceFor
  cases hinterface : f.interface with
  | none =>
    have hpeer : f.peer = none := by
      rw [← Option.not_isSome_iff_eq_none, ← hsides, hinterface]
      exact Bool.false_ne_true
    rw [hpeer]
  | some index =>
    rw [hinterface] at hsides
    obtain ⟨peer, hpeer⟩ := Option.isSome_iff_exists.mp hsides.symm
    rw [hpeer]
    exact if_pos (hl.interfaces f hf index hinterface)

/-- Whatever number was given out last, the faces that are there still resolve. -/
lemma getFace_of_mem {r : Relay σ κ} (hl : r.Linked) (h : r.faces.Registered) {f : Face σ}
    (hf : f ∈ r.faces.faces) :
    r.getFace f.interface f.peer = (.ok f.id, r.touchFace f.id r.clock) :=
  getFace_of_known h (interfaceFor_of_mem hl h hf) hf rfl

end Relay

section

variable {σ κ : Type} [Scheduler σ] [CacheStrategy κ]

lemma Reachable.registered {r : Relay σ κ} (h : Reachable r) : r.faces.Registered := by
  induction h with
  | create config clock digest hnew =>
    have hnumbered := (Reachable.create config clock digest hnew).numbered
    unfold Relay.create at hnew
    split at hnew
    · cases hnew
    · cases hnew
      exact ⟨hnumbered, List.nodup_nil, List.forall_mem_nil _⟩
  | run op hr ih =>
    obtain ⟨ids, hevolves⟩ := Relay.faces_evolve_run hr.numbered op
    exact hevolves.registered ih

end

/-- The registry of faces. In every reachable state the faces stand in the order of their numbers,
which is what finding them by halving needs; no two of them are in one place, one at most is local,
and each has an interface exactly if it has a peer. Whatever is done next gives out the next
numbers, one after the other, and never one that has gone. And asking for a face finds the one that
is there, adds exactly one, or fails and changes nothing. -/
theorem faces_are_registered_once {σ κ : Type} [Scheduler σ] [CacheStrategy κ] {r : Relay σ κ}
    (h : Reachable r) :
    r.faces.Registered ∧
    (∀ f ∈ r.faces.faces, ∀ f' ∈ r.faces.faces, f.isLocal = true → f'.isLocal = true → f = f') ∧
    r.faces.FoundByHalving ∧
    (∀ ops : List (Operation σ κ), ∃ ids, r.faces.GivesOut ids (Operation.runAll ops r).faces) ∧
    (∀ interface peer, r.GetsFace interface peer) ∧
    ∀ f ∈ r.faces.faces, r.faces.get? f.id = some f ∧
      r.getFace f.interface f.peer = (.ok f.id, r.touchFace f.id r.clock) := by
  have hregistered := h.registered
  refine ⟨hregistered, fun f hf f' hf' => hregistered.eq_of_isLocal hf hf',
    h.numbered.foundByHalving, ?_, Relay.getsFace hregistered, ?_⟩
  · intro ops
    obtain ⟨ids, hevolves⟩ := Relay.faces_evolve_runAll h.numbered ops
    exact ⟨ids, hevolves.givesOut⟩
  · exact fun f hf => ⟨h.numbered.get?_of_mem hf, Relay.getFace_of_mem h.linked hregistered hf⟩

/-- A peer that is met again after its face was removed gets a new number. -/
theorem removed_face_gets_new_number :
    Reachable Sample.peered ∧
      Sample.peered.faces.position? ⟨2⟩ = some 1 ∧
      (Operation.runAll [.removeFace ⟨1⟩, Sample.meets 2] Sample.peered).faces.faces.map Face.id =
        [⟨2⟩, ⟨3⟩, ⟨4⟩] ∧
      ∀ ops, (Operation.runAll ops (Operation.runAll [.removeFace ⟨1⟩, Sample.meets 2]
        Sample.peered)).faces.get? ⟨1⟩ = none := by
  obtain ⟨-, -, hfound, -⟩ := faces_are_registered_once Sample.reachable_peered
  refine ⟨Sample.reachable_peered, (hfound.position _ _).mpr (by decide), by decide, fun ops => ?_⟩
  have hreachable := Sample.reachable_peered.runAll [.removeFace ⟨1⟩, Sample.meets 2]
  obtain ⟨-, -, -, hruns, -⟩ := faces_are_registered_once hreachable
  obtain ⟨ids, hgives⟩ := hruns ops
  exact hgives.retired ⟨1⟩ (by decide) (by decide)

end NamedRelay
