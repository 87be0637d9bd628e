import NamedRelay.Proofs.Forwarding
import NamedRelay.Proofs.SlotTable

/-!
# The serving pass

Who gets the content of a pass, and how often. The faces that wait on a satisfied entry and are
there get it once each, network faces on their queues and the application's face by delivery. The
relay's own request gets one delivery for each satisfied entry that it wants.
-/

namespace NamedRelay

/-- Each face is listed once, and on the side it belongs to. -/
structure Recipients.Fair {σ : Type} (g : FaceRegistry σ) (s : Recipients) : Prop where
  network_once : ∀ id, s.network.count id ≤ 1
  deliveries_once : ∀ id, s.deliveries.count (some id) ≤ 1
  network : ∀ id ∈ s.network, ∃ f, g.get? id = some f ∧ f.isLocal = false
  deliveries : ∀ id, some id ∈ s.deliveries → ∃ f, g.get? id = some f ∧ f.isLocal = true

namespace Recipients.Fair

variable {σ : Type} {g : FaceRegistry σ} {s : Recipients} {f : Face σ}

lemma of_mem_network (h : s.Fair g) (hf : g.get? f.id = some f) (hin : f.id ∈ s.network) :
    f.isLocal = false ∧ s.network.count f.id = 1 := by
  obtain ⟨f', hf', hlocal⟩ := h.network f.id hin
  rw [hf] at hf'
  cases hf'
  have hpos := List.count_pos_iff.mpr hin
  have honce := h.network_once f.id
  exact ⟨hlocal, by omega⟩

lemma of_mem_deliveries (h : s.Fair g) (hf : g.get? f.id = some f)
    (hin : some f.id ∈ s.deliveries) :
    f.isLocal = true ∧ s.deliveries.count (some f.id) = 1 := by
  obtain ⟨f', hf', hlocal⟩ := h.deliveries f.id hin
  rw [hf] at hf'
  cases hf'
  have hpos := List.count_pos_iff.mpr hin
  have honce := h.deliveries_once f.id
  exact ⟨hlocal, by omega⟩

end Recipients.Fair

lemma count_append_singleton_le_one {α : Type} [BEq α] [LawfulBEq α] {items : List α}
    {new x : α} (hnew : new ∉ items) (h : items.count x ≤ 1) :
    (items ++ [new]).count x ≤ 1 := by
  rw [List.count_append]
  by_cases heq : new = x
  · rw [← heq, List.count_eq_zero.mpr hnew]
    simp
  · simpa [heq] using h

namespace Relay

variable {σ κ : Type}

/-! ## Recipients -/

lemma fair_addRecipient {r : Relay σ κ} {s : Recipients} (h : s.Fair r.faces) (w : Waiter) :
    (r.addRecipient s w).Fair r.faces := by
  unfold addRecipient
  split
  · exact h
  · rename_i f hf
    have hid := FaceRegistry.id_of_get? hf
    rw [← hid] at hf
    split
    · exact h
    · rename_i hnew
      simp only [Recipients.includes, Bool.or_eq_true, List.contains_iff_mem, not_or] at hnew
      split
      · rename_i hlocal
        refine { h with deliveries_once := ?_, deliveries := ?_ }
        · exact fun id => count_append_singleton_le_one hnew.2 (h.deliveries_once id)
        · intro id hid
          rcases List.mem_append.mp hid with hid | hid
          · exact h.deliveries id hid
          · cases List.mem_singleton.mp hid
            exact ⟨f, hf, hlocal⟩
      · rename_i hlocal
        refine { h with network_once := ?_, network := ?_ }
        · exact fun id => count_append_singleton_le_one hnew.1 (h.network_once id)
        · intro id hid
          rcases List.mem_append.mp hid with hid | hid
          · exact h.network id hid
          · cases List.mem_singleton.mp hid
            exact ⟨f, hf, Bool.eq_false_iff.mpr hlocal⟩

lemma includes_addRecipient (r : Relay σ κ) (s : Recipients) (w : Waiter) (id : FaceId) :
    (r.addRecipient s w).includes id = true ↔
      s.includes id = true ∨ w.face = id ∧ r.isLive id = true := by
  unfold addRecipient
  split
  · rename_i hf
    constructor
    · exact Or.inl
    · rintro (h | ⟨rfl, h⟩)
      · exact h
      · simp [isLive, hf] at h
  · rename_i f hf
    obtain hid := FaceRegistry.id_of_get? hf
    have hl : r.isLive w.face = true := isLive_of_get? hf
    split
    · rename_i hin
      constructor
      · exact Or.inl
      · rintro (h | ⟨rfl, -⟩)
        · exact h
        · exact hid ▸ hin
    · split
      all_goals
        simp only [Recipients.includes, Bool.or_eq_true, List.contains_iff_mem, List.mem_append,
          List.mem_singleton, Option.some.injEq, hid]
        constructor
        · grind
        · grind

lemma count_none_addRecipient (r : Relay σ κ) (s : Recipients) (w : Waiter) :
    (r.addRecipient s w).deliveries.count none = s.deliveries.count none := by
  unfold addRecipient
  split
  · rfl
  · split
    · rfl
    · split
      · simp [List.count_append]
      · rfl

section Fold

variable (r : Relay σ κ)

lemma fair_foldl_addRecipient (waiters : List Waiter) {s : Recipients} (h : s.Fair r.faces) :
    (waiters.foldl r.addRecipient s).Fair r.faces := by
  induction waiters generalizing s with
  | nil => exact h
  | cons w waiters ih => exact ih (fair_addRecipient h w)

lemma includes_foldl_addRecipient (waiters : List Waiter) (s : Recipients) (id : FaceId) :
    (waiters.foldl r.addRecipient s).includes id = true ↔
      s.includes id = true ∨ (∃ w ∈ waiters, w.face = id) ∧ r.isLive id = true := by
  induction waiters generalizing s with
  | nil => simp
  | cons w waiters ih =>
    rw [List.foldl_cons, ih, includes_addRecipient]
    simp only [List.mem_cons, exists_eq_or_imp]
    tauto

lemma count_none_foldl_addRecipient (waiters : List Waiter) (s : Recipients) :
    (waiters.foldl r.addRecipient s).deliveries.count none = s.deliveries.count none := by
  induction waiters generalizing s with
  | nil => rfl
  | cons w waiters ih => rw [List.foldl_cons, ih, count_none_addRecipient]

lemma fair_addRecipients {s : Recipients} (h : s.Fair r.faces) (e : PendingInterest) :
    (r.addRecipients s e).Fair r.faces := by
  apply fair_foldl_addRecipient
  split
  · exact { h with
      deliveries_once := by simpa [List.count_append] using h.deliveries_once
      deliveries := by simpa using h.deliveries }
  · exact h

lemma includes_addRecipients (s : Recipients) (e : PendingInterest) (id : FaceId) :
    (r.addRecipients s e).includes id = true ↔
      s.includes id = true ∨ (∃ w ∈ e.waiters, w.face = id) ∧ r.isLive id = true := by
  unfold addRecipients
  rw [includes_foldl_addRecipient]
  split
  · simp [Recipients.includes]
  · rfl

lemma count_none_addRecipients (s : Recipients) (e : PendingInterest) :
    (r.addRecipients s e).deliveries.count none =
      s.deliveries.count none + if e.isLocal then 1 else 0 := by
  unfold addRecipients
  rw [count_none_foldl_addRecipient]
  split
  · simp [List.count_append]
  · rfl

lemma fair_recipients (content : Packet) : (r.recipients content).Fair r.faces := by
  unfold recipients
  generalize r.pending.toList.filter (r.satisfies content) = satisfied
  have hempty : ({} : Recipients).Fair r.faces :=
    ⟨by simp, by simp, by simp, by simp⟩
  revert hempty
  generalize ({} : Recipients) = s
  intro hs
  induction satisfied generalizing s with
  | nil => exact hs
  | cons e satisfied ih => exact ih _ (r.fair_addRecipients hs e)

/-- A face that is there gets the content exactly if it waits on an entry that is satisfied. -/
lemma includes_recipients (content : Packet) (id : FaceId) :
    (r.recipients content).includes id = true ↔
      (∃ e ∈ r.pending.toList, r.satisfies content e = true ∧ ∃ w ∈ e.waiters, w.face = id) ∧
        r.isLive id = true := by
  have hfold : ∀ (satisfied : List PendingInterest) (s : Recipients),
      (satisfied.foldl r.addRecipients s).includes id = true ↔
        s.includes id = true ∨
          (∃ e ∈ satisfied, ∃ w ∈ e.waiters, w.face = id) ∧ r.isLive id = true := by
    intro satisfied
    induction satisfied with
    | nil => simp
    | cons e satisfied ih =>
      intro s
      rw [List.foldl_cons, ih, includes_addRecipients]
      simp only [List.mem_cons, or_and_right, exists_or, exists_eq_left, or_assoc]
  unfold recipients
  rw [hfold]
  simp [Recipients.includes, and_assoc]

lemma count_none_recipients (content : Packet) :
    (r.recipients content).deliveries.count none =
      r.pending.toList.countP fun e => r.satisfies content e && e.isLocal := by
  have hfold : ∀ (satisfied : List PendingInterest) (s : Recipients),
      (satisfied.foldl r.addRecipients s).deliveries.count none =
        s.deliveries.count none + satisfied.countP PendingInterest.isLocal := by
    intro satisfied
    induction satisfied with
    | nil => simp
    | cons e satisfied ih =>
      intro s
      rw [List.foldl_cons, ih, count_none_addRecipients, List.countP_cons]
      omega
  unfold recipients
  rw [hfold, List.countP_filter]
  simp [Bool.and_comm]

end Fold

/-! ## Handing the content out -/

/-- What a pass hands out. -/
def answers (r : Relay σ κ) (content : Packet) : List Handing :=
  (r.recipients content).network.map (fun id => .face id .reply content.wire) ++
    if r.delivers then (r.recipients content).deliveries.map fun id => .application id content
    else []

lemma eq_of_mem_answers {r : Relay σ κ} {content : Packet} {x : Handing}
    (hx : x ∈ r.answers content) :
    (∃ id, x = .face id .reply content.wire) ∨ ∃ id, x = .application id content := by
  unfold answers at hx
  rcases List.mem_append.mp hx with hx | hx
  · obtain ⟨id, -, rfl⟩ := List.mem_map.mp hx
    exact .inl ⟨id, rfl⟩
  · split at hx
    · obtain ⟨id, -, rfl⟩ := List.mem_map.mp hx
      exact .inr ⟨id, rfl⟩
    · cases hx

lemma deliver_sends (r : Relay σ κ) (id : Option FaceId) (content : Packet) :
    r.Sends (r.deliver id content) (if r.delivers then [.application id content] else []) := by
  unfold deliver
  split
  · exact ⟨{ Keeps.refl r with }, ⟨[_], rfl, rfl⟩, by simp [emit, Handing.isInterest],
      by simp [emit, Handing.isReply]⟩
  · exact Sends.refl r

lemma deliverAll_sends (r : Relay σ κ) (content : Packet) (ids : List (Option FaceId)) :
    r.Sends (ids.foldl (fun r id => r.deliver id content) r)
      (if r.delivers then ids.map fun id => .application id content else []) := by
  induction ids generalizing r with
  | nil => simpa using Sends.refl r
  | cons id ids ih =>
    have hfirst := r.deliver_sends id content
    have hrest := ih (r.deliver id content)
    rw [hfirst.delivers] at hrest
    have hall := hfirst.trans hrest
    cases hd : r.delivers
    · simpa [hd] using hall
    · simpa [hd] using hall

variable [Scheduler σ]

lemma forwardContent_sends (r : Relay σ κ) (wire : Bytes) {id : FaceId}
    (hl : r.isLive id = true) :
    r.Sends (r.forwardContent wire id) [.face id .reply wire] :=
  r.offer_sends hl wire (fun _ => by simp [Handing.isInterest]) (fun _ => rfl)

lemma forwardContent_keeps (r : Relay σ κ) (wire : Bytes) (id : FaceId) :
    r.Keeps (r.forwardContent wire id) := by
  have hkeeps : r.Keeps (r.tally fun c =>
      { c with contentsForwarded := c.contentsForwarded + 1 }) := { Keeps.refl r with }
  exact hkeeps.trans (offer_keeps _ .reply id wire)

lemma forwardContents_sends (r : Relay σ κ) (wire : Bytes) (ids : List FaceId)
    (hl : ∀ id ∈ ids, r.isLive id = true) :
    r.Sends (ids.foldl (fun r id => r.forwardContent wire id) r)
      (ids.map fun id => .face id .reply wire) := by
  induction ids generalizing r with
  | nil => exact Sends.refl r
  | cons id ids ih =>
    have hfirst := r.forwardContent_sends wire (hl id List.mem_cons_self)
    have hrest := ih (r.forwardContent wire id)
      (fun j hj => hfirst.isLive (hl j (List.mem_cons_of_mem id hj)))
    exact hfirst.trans hrest

omit [Scheduler σ] in
lemma isLive_of_mem_network {r : Relay σ κ} {content : Packet} {id : FaceId}
    (h : id ∈ (r.recipients content).network) : r.isLive id = true := by
  obtain ⟨f, hf, -⟩ := (r.fair_recipients content).network id h
  exact isLive_of_get? hf

/-- A pass takes the satisfied entries out and hands the content to the recipients. -/
lemma servePacket_sends (r : Relay σ κ) (content : Packet) :
    (r.withoutSatisfied content).Sends (r.servePacket content).2 (r.answers content) := by
  have hforward := (r.withoutSatisfied content).forwardContents_sends content.wire
    (r.recipients content).network
    (fun id hid => (isLive_of_mem_network hid : r.isLive id = true))
  have hdeliver := deliverAll_sends
    ((r.recipients content).network.foldl (fun r id => r.forwardContent content.wire id)
      (r.withoutSatisfied content)) content (r.recipients content).deliveries
  rw [hforward.delivers] at hdeliver
  exact hforward.trans hdeliver

omit [Scheduler σ] in
lemma toList_withoutSatisfied (r : Relay σ κ) (content : Packet) :
    (r.withoutSatisfied content).pending.toList =
      r.pending.toList.filter fun e => !r.satisfies content e := by
  unfold withoutSatisfied
  rw [SlotTable.toList_retain, ← List.filterMap_eq_filter]
  congr 1
  funext e
  cases h : r.satisfies content e
  · simp [Option.guard, h]
  · simp [Option.guard, h]

/-! ## One face's part -/

lemma filter_map_eq_replicate {α β : Type} [BEq α] [LawfulBEq α] {g : α → β} {p : β → Bool}
    {a : α} (h : ∀ x, p (g x) = (x == a)) (items : List α) :
    (items.map g).filter p = List.replicate (items.count a) (g a) := by
  have hp : p ∘ g = fun x => x == a := funext h
  rw [List.filter_map, hp, List.filter_beq, List.map_replicate]

/-- How a face is handed an answer; the application's face only where there is a callback. -/
def answerTo (r : Relay σ κ) (f : Face σ) (content : Packet) : List Handing :=
  if f.isLocal then
    if r.delivers then [.application (some f.id) content] else []
  else [.face f.id .reply content.wire]

omit [Scheduler σ] in
lemma eq_of_mem_answerTo {r : Relay σ κ} {f : Face σ} {content : Packet} {x : Handing}
    (hx : x ∈ r.answerTo f content) :
    x = .face f.id .reply content.wire ∨ x = .application (some f.id) content := by
  unfold answerTo at hx
  split at hx
  · split at hx
    · exact .inr (List.mem_singleton.mp hx)
    · cases hx
  · exact .inl (List.mem_singleton.mp hx)

omit [Scheduler σ] in
/-- What a face is handed is counted among the recipients on both sides. -/
lemma filter_answers (r : Relay σ κ) (content : Packet) (id : FaceId) :
    (r.answers content).filter (fun h => h.repliesTo? == some id) =
      List.replicate ((r.recipients content).network.count id) (.face id .reply content.wire) ++
        if r.delivers then List.replicate ((r.recipients content).deliveries.count (some id))
          (.application (some id) content) else [] := by
  have hnetwork : ((r.recipients content).network.map fun id =>
      Handing.face id .reply content.wire).filter (fun h => h.repliesTo? == some id) =
      List.replicate ((r.recipients content).network.count id)
        (.face id .reply content.wire) :=
    filter_map_eq_replicate (fun _ => rfl) _
  have hdeliveries : ((r.recipients content).deliveries.map fun id =>
      Handing.application id content).filter (fun h => h.repliesTo? == some id) =
      List.replicate ((r.recipients content).deliveries.count (some id))
        (.application (some id) content) :=
    filter_map_eq_replicate (fun _ => rfl) _
  unfold answers
  rw [List.filter_append, hnetwork]
  split
  · rw [hdeliveries]
  · rfl

omit [Scheduler σ] in
/-- A face that waits on a satisfied entry is handed the content once, and any other face not at
all. -/
lemma answers_to (r : Relay σ κ) (content : Packet) {id : FaceId} {f : Face σ}
    (hf : r.faces.get? id = some f) :
    (r.answers content).filter (fun h => h.repliesTo? == some id) =
      if (r.recipients content).includes id then r.answerTo f content else [] := by
  have hfair := r.fair_recipients content
  obtain rfl := FaceRegistry.id_of_get? hf
  rw [filter_answers]
  unfold answerTo
  -- A face is on one side at most, as it is local or not.
  by_cases hn : f.id ∈ (r.recipients content).network
  · obtain ⟨hlocal, hcount⟩ := hfair.of_mem_network hf hn
    have hout : some f.id ∉ (r.recipients content).deliveries := by
      intro hd
      rw [(hfair.of_mem_deliveries hf hd).1] at hlocal
      cases hlocal
    simp [Recipients.includes, hn, hlocal, hcount, List.count_eq_zero.mpr hout]
  · by_cases hd : some f.id ∈ (r.recipients content).deliveries
    · obtain ⟨hlocal, hcount⟩ := hfair.of_mem_deliveries hf hd
      simp [Recipients.includes, hd, hlocal, hcount, List.count_eq_zero.mpr hn]
    · simp [Recipients.includes, hn, hd, List.count_eq_zero.mpr hn, List.count_eq_zero.mpr hd]

omit [Scheduler σ] in
/-- The relay's own request gets the content once for each satisfied entry that it wants. -/
lemma answers_own (r : Relay σ κ) (content : Packet) :
    (r.answers content).filter Handing.isOwn =
      if r.delivers then List.replicate
        (r.pending.toList.countP fun e => r.satisfies content e && e.isLocal)
        (.application none content)
      else [] := by
  have hnetwork : ((r.recipients content).network.map fun id =>
      Handing.face id .reply content.wire).filter Handing.isOwn = [] := by
    rw [List.filter_eq_nil_iff]
    intro h hh
    obtain ⟨id, -, rfl⟩ := List.mem_map.mp hh
    simp [Handing.isOwn]
  have hown : ∀ id, Handing.isOwn (.application id content) = (id == none) := by
    intro id
    cases id <;> rfl
  unfold answers
  rw [List.filter_append, hnetwork, List.nil_append]
  split
  · rw [filter_map_eq_replicate hown, count_none_recipients]
  · rfl

end Relay

end NamedRelay
