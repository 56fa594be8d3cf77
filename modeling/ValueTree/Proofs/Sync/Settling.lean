import Mathlib.Algebra.GroupWithZero.Nat
import Mathlib.Algebra.Order.BigOperators.Group.List
import Mathlib.Algebra.Order.Group.Nat
import ValueTree.Proofs.Sync.Echo

/-!
# Two ends that talk to each other

Each end carries out what the other one says and says what it has to say about that. Removals are
said again, so one message may bring about many. But each of them costs a value, and the values that
are there and the ones that messages may still bring are only so many.
-/

namespace ValueTree

/-! ## Deliveries -/

/-- One end, with the messages on their way to it. -/
structure Peer where
  mirror : Mirror
  inbox : List Message

/-- The messages that an end sends because of one that it was given. -/
def Mirror.caused (r : Mirror) (message : Message) : List Message :=
  (r.news [message]).filterMap Event.message?

/-- Two ends. -/
structure Exchange where
  near : Peer
  far : Peer

namespace Exchange

def inFlight (x : Exchange) : List Message := x.near.inbox ++ x.far.inbox

/-- One message is delivered, whichever it is, and what it causes is on its way back. -/
inductive Delivery (x : Exchange) : Exchange → Prop
  | near {before after : List Message} {message : Message} :
    x.near.inbox = before ++ message :: after → Delivery x {
      near := { mirror := x.near.mirror.receive [message], inbox := before ++ after }
      far := { x.far with inbox := x.far.inbox ++ x.near.mirror.caused message } }
  | far {before after : List Message} {message : Message} :
    x.far.inbox = before ++ message :: after → Delivery x {
      near := { x.near with inbox := x.near.inbox ++ x.far.mirror.caused message }
      far := { mirror := x.far.mirror.receive [message], inbox := before ++ after } }

/-- So many deliveries lead from one state to another. -/
inductive Deliveries : Nat → Exchange → Exchange → Prop
  | none {x : Exchange} : Deliveries 0 x x
  | next {n : Nat} {x y z : Exchange} : Delivery x y → Deliveries n y z → Deliveries (n + 1) x z

end Exchange

/-! ## Room -/

namespace Store

variable {s t u : Store} {id x : Id} {node : Node} {payload : Payload} {access : Access}
  {origin : Origin} {key : String}

/-- How many values an update may bring into being: a new key may come with its container, with the
root of its instance, and with what the template has. -/
def room (s : Store) : Update → Nat
  | .set _ => 1
  | .addKey container _ => ((s.schema? container).map (·.template.length)).getD 0 + 2
  | .removeKey .. => 0

def roomFor (s : Store) : Message → Nat
  | .valueChanged updates => (updates.map s.room).sum
  | .result _ .success values => (values.map fun value => s.room (.set value)).sum
  | _ => 0

/-- Every schema of one store is one of the other. -/
def SchemasFrom (t s : Store) : Prop :=
  ∀ x schema, t.schema? x = some schema → s.schema? x = some schema

theorem room_le (h : t.SchemasFrom s) (update : Update) : t.room update ≤ s.room update := by
  cases update with
  | set value => exact Nat.le_refl _
  | removeKey container key => exact Nat.le_refl _
  | addKey container key =>
    cases hschema : t.schema? container with
    | none => simp [room, hschema]
    | some schema => simp [room, hschema, h _ _ hschema]

theorem roomFor_le (h : t.SchemasFrom s) (message : Message) :
    t.roomFor message ≤ s.roomFor message := by
  unfold roomFor
  split
  · exact List.sum_le_sum fun update _ => room_le h update
  · exact List.sum_le_sum fun value _ => room_le h (.set value)
  · exact Nat.le_refl _

/-! ## How many values there are -/

theorem mem_nodes : x ∈ s.nodes ↔ s.has x = true :=
  Std.ExtTreeMap.mem_iff_isSome_getElem?

theorem size_put (hhas : s.has id = true) (node : Node) : (s.put id node).size = s.size := by
  simp [size, put, Std.ExtTreeMap.size_insert, mem_nodes, hhas]

theorem size_add (value : Value) : (s.add value).size ≤ s.size + 1 :=
  Std.ExtTreeMap.size_insert_le

theorem size_erase (id : Id) :
    (s.erase id).size + (if s.has id = true then 1 else 0) ≤ s.size := by
  have hsize : (s.erase id).size = if s.has id = true then s.size - 1 else s.size := by
    simp [size, erase, Std.ExtTreeMap.size_erase, mem_nodes]
  rw [hsize]
  split
  · have hpos : s.size ≠ 0 := by
      intro hzero
      have hnodes : s.nodes = ∅ := Std.ExtTreeMap.eq_empty_iff_size_eq_zero.mpr hzero
      have hmem : id ∈ s.nodes := mem_nodes.mpr ‹_›
      rw [hnodes] at hmem
      exact Std.ExtTreeMap.not_mem_empty hmem
    omega
  · exact Nat.le_refl _

/-- Each value that is erased is one less. -/
theorem size_eraseAll {ids : List Id} (hnodup : ids.Nodup) :
    (s.eraseAll ids).size + ids.countP s.has ≤ s.size := by
  induction ids generalizing s with
  | nil => exact Nat.le_refl _
  | cons id rest ih =>
    obtain ⟨hid, hrest⟩ := List.nodup_cons.mp hnodup
    have hothers : rest.countP (s.erase id).has = rest.countP s.has := by
      apply List.countP_congr
      intro x hx
      have hne : id ≠ x := fun he => hid (he ▸ hx)
      rw [has, node?_erase, if_neg hne, has]
    have hfirst := s.size_erase id
    have hall := ih (s := s.erase id) hrest
    rw [hothers] at hall
    have hstore : s.eraseAll (id :: rest) = (s.erase id).eraseAll rest := rfl
    rw [hstore, List.countP_cons]
    omega

theorem size_unlink (id : Id) : (s.unlink id).size = s.size := by
  unfold unlink
  split
  · split
    · exact size_put (has_eq_true.mpr ⟨_, ‹_›⟩) _
    · rfl
  · rfl

theorem size_write : (s.write id payload access origin).store.size ≤ s.size + 1 := by
  unfold write
  split
  · unfold create
    split
    · exact Nat.le_succ _
    · exact size_add _
  · split
    · exact Nat.le_succ _
    · rename_i node hnode _
      unfold assignAt
      split
      · exact Nat.le_succ _
      · exact Nat.le_succ _
      · exact (size_put (has_eq_true.mpr ⟨node, hnode⟩) _).trans_le (Nat.le_succ _)

theorem size_fill (values : List Value) :
    (s.fill origin values).1.size ≤ s.size + values.length := by
  induction values generalizing s with
  | nil => exact Nat.le_refl _
  | cons value rest ih =>
    cases hhas : s.has value.id with
    | true =>
      rw [fill_cons_old hhas]
      exact ih.trans (Nat.add_le_add_left (Nat.le_succ _) _)
    | false =>
      have hadd := s.size_add value
      have hrest := ih (s := s.add value)
      simp only [fill_cons_new hhas, List.length_cons]
      omega

theorem size_addKeyAt {root : Id} (hnode : s.node? id = some node) :
    (s.addKeyAt id node key root origin).store.size + 1 ≤ s.size + s.room (.addKey id key) := by
  have hvalues : (s.instanceValues id key root).length + 1 = s.room (.addKey id key) := by
    cases hschema : s.schema? id <;> simp [instanceValues, room, hschema, Schema.instantiate]
  unfold addKeyAt
  split
  · exact Nat.add_le_add_left (hvalues ▸ Nat.succ_pos _) _
  · split
    · exact Nat.add_le_add_left (hvalues ▸ Nat.succ_pos _) _
    · rw [← hvalues]
      refine Nat.succ_le_succ ((size_fill _).trans ?_)
      rw [size_put (has_eq_true.mpr ⟨node, hnode⟩)]
      exact Nat.le_refl _

theorem size_addKey : (s.addKey id key origin).store.size ≤ s.size + s.room (.addKey id key) := by
  unfold addKey
  split
  · exact Nat.le_add_right _ _
  · rename_i root _
    split
    · exact Nat.le_of_succ_le (size_addKeyAt ‹_›)
    · exact Nat.le_add_right _ _
    · let value : Value := { id, payload := .container .ordered }
      have hadd := s.size_add value
      have hkey : ((s.add value).addKeyAt id { value } key root .remote).store.size + 1 ≤
          (s.add value).size + (s.add value).room (.addKey id key) :=
        size_addKeyAt (by rw [node?_add, if_pos rfl])
      have hroom : (s.add value).room (.addKey id key) = s.room (.addKey id key) := rfl
      rw [hroom] at hkey
      exact Nat.le_of_add_le_add_right (hkey.trans (by omega))

theorem size_removeKey : (s.removeKey id key origin).store.size ≤ s.size := by
  unfold removeKey
  split
  · exact Nat.le_refl _
  · rename_i root _
    split
    · exact Nat.le_refl _
    · rename_i node hnode
      unfold removeKeyAt
      split
      · exact Nat.le_refl _
      · split
        · exact Nat.le_refl _
        · let unlinked := s.put id { node with keys := node.keys.erase key }
          have hput : unlinked.size = s.size := size_put (has_eq_true.mpr ⟨node, hnode⟩) _
          have herase := size_eraseAll (s := unlinked) (s.nodup_subtree root)
          exact (Nat.le_of_add_right_le herase).trans_eq hput

/-- A removal has as many events as values go. -/
theorem size_remove :
    (s.remove id origin).store.size + (s.remove id origin).events.length ≤ s.size := by
  unfold remove
  split
  · have hnodup : (s.subtree id).reverse.Nodup :=
      (List.reverse_perm _).nodup_iff.mpr (s.nodup_subtree id)
    have herase := size_eraseAll (s := s.unlink id) hnodup
    have hcount : ((s.subtree id).reverse.filterMap s.get?).length =
        (s.subtree id).reverse.countP (s.unlink id).has := by
      rw [List.length_filterMap_eq_countP]
      apply List.countP_congr
      intro x _
      rw [has_unlink]
      simp [get?, has]
    rw [size_unlink] at herase
    rw [List.length_map, hcount]
    exact herase
  · exact Nat.le_refl _

end Store

/-! ## What handling costs -/

namespace Mirror

variable {r r' r'' : Mirror} {room room' : Nat}

/-- From one mirror to another at the cost of so much room. Every message that is sent costs a value
that was there or for which there was room, and a value counts twice, for it costs a message to do
away with it. -/
structure Spends (r r' : Mirror) (room : Nat) : Prop where
  schemas : r'.quiet.store.SchemasFrom r.quiet.store
  events : ∃ new, r'.quiet.events = r.quiet.events ++ new ∧
    (∀ event ∈ new, event.origin = .remote) ∧
      2 * r'.quiet.store.size + (new.filterMap Event.message?).length ≤
        2 * (r.quiet.store.size + room)

namespace Spends

theorem refl (r : Mirror) : r.Spends r 0 :=
  ⟨fun _ _ hx => hx, [], by simp, nofun, Nat.le_refl _⟩

theorem trans (h : r.Spends r' room) (h' : r'.Spends r'' room') :
    r.Spends r'' (room + room') := by
  obtain ⟨new, hnew, hremote, hsize⟩ := h.events
  obtain ⟨new', hnew', hremote', hsize'⟩ := h'.events
  refine ⟨fun _ _ hx => h.schemas _ _ (h'.schemas _ _ hx), new ++ new', ?_, ?_, ?_⟩
  · rw [hnew', hnew, List.append_assoc]
  · intro event hevent
    exact (List.mem_append.mp hevent).elim (hremote event) (hremote' event)
  · rw [List.filterMap_append, List.length_append]
    omega

theorem mono (h : r.Spends r' room) (hle : room ≤ room') : r.Spends r' room' := by
  obtain ⟨new, hnew, hremote, hsize⟩ := h.events
  exact ⟨h.schemas, new, hnew, hremote, by omega⟩

theorem answered (h : r.Spends r' room) (results : List (UInt32 × Bool)) :
    r.Spends { r' with results } room := ⟨h.schemas, h.events⟩

end Spends

theorem spends_change {α : Type} (step : Store → Outcome α) {outcome : Outcome α}
    (hstep : step r.quiet.store = outcome) (hschemas : outcome.store.SchemasFrom r.quiet.store)
    (hremote : ∀ event ∈ outcome.events, event.origin = .remote)
    (hsize : 2 * outcome.store.size + (outcome.events.filterMap Event.message?).length ≤
      2 * (r.quiet.store.size + room)) :
    r.Spends ((Host.change step : StateM Mirror (Except StoreError α)) r).2 room := by
  subst hstep
  exact ⟨hschemas, _, rfl, hremote, hsize⟩

/-- Where nothing is removed no message tells of it. -/
theorem spends_quietly {α : Type} (step : Store → Outcome α) {outcome : Outcome α}
    (hstep : step r.quiet.store = outcome) (hschemas : outcome.store.SchemasFrom r.quiet.store)
    (hsilent : ∀ event ∈ outcome.events, event.Silent)
    (hsize : outcome.store.size ≤ r.quiet.store.size + room) :
    r.Spends ((Host.change step : StateM Mirror (Except StoreError α)) r).2 room := by
  apply spends_change step hstep hschemas fun event hevent => (hsilent event hevent).remote
  rw [(Echoes.silent hsilent).messages]
  exact Nat.mul_le_mul_left 2 hsize

theorem spends_dismiss (r : Mirror) (removal : Id × Option Token) :
    r.Spends ((Receiver.applyRemoval removal.1 removal.2 : StateM Mirror Unit) r).2 0 := by
  have hremove {step : Store → Outcome Bool} {id : Id}
      (hstep : step r.quiet.store = r.quiet.store.remove id .remote) :
      r.Spends ((Host.change step : StateM Mirror (Except StoreError Bool)) r).2 0 := by
    have hremote : ∀ event ∈ (r.quiet.store.remove id .remote).events,
        event.origin = .remote := by
      intro event hevent
      obtain ⟨x, rfl⟩ := Store.mem_events_remove hevent
      rfl
    apply spends_change step hstep (fun _ _ => Store.schema?_of_remove) hremote
    have hsize : (r.quiet.store.remove id .remote).store.size +
        (r.quiet.store.remove id .remote).events.length ≤ r.quiet.store.size := Store.size_remove
    have hlength := List.length_filterMap_le Event.message?
      (r.quiet.store.remove id .remote).events
    omega
  rw [applyRemoval_eq]
  obtain ⟨id, token?⟩ := removal
  cases token? with
  | none => exact hremove rfl
  | some token =>
    by_cases htoken : id.token = token
    · exact hremove (if_pos htoken)
    · exact spends_quietly _ (if_neg htoken) (fun _ _ hx => hx) nofun (Nat.le_refl _)

theorem spends_applyValue (r : Mirror) (value : Value) :
    r.Spends ((Receiver.applyValue value : StateM Mirror Bool) r).2 1 := by
  rw [applyValue_eq]
  split
  · exact (Spends.refl r).mono (Nat.zero_le _)
  · split
    · exact (Spends.refl r).mono (Nat.zero_le _)
    · exact spends_quietly (·.setValue value .remote) rfl
        (fun _ _ hx => Store.schema?_write ▸ hx) (fun _ => Store.silent_write) Store.size_write

theorem spends_applyUpdate (r : Mirror) (update : Update) :
    r.Spends ((Receiver.applyUpdate update : StateM Mirror Bool) r).2
      (r.quiet.store.room update) := by
  cases update with
  | set value => exact spends_applyValue r value
  | addKey container key =>
    exact spends_quietly (·.addKey container key .remote) rfl
      (fun _ _ hx => Store.schema?_addKey ▸ hx) (fun _ => Store.silent_addKey) Store.size_addKey
  | removeKey container key =>
    exact spends_quietly (·.removeKey container key .remote) rfl
      (fun _ _ => Store.schema?_of_removeKey) (fun _ => Store.silent_removeKey)
      Store.size_removeKey

/-- Items one after the other, where the room for an item does not grow as schemas go. -/
theorem spends_forM {β : Type} {act : β → StateM Mirror Unit} (room : Store → β → Nat)
    (hroom : ∀ {s t : Store} b, t.SchemasFrom s → room t b ≤ room s b)
    (hact : ∀ r b, Spends r (act b r).2 (room r.quiet.store b)) (items : List β) (r : Mirror) :
    r.Spends (items.forM act r).2 (items.map (room r.quiet.store)).sum := by
  induction items generalizing r with
  | nil => exact .refl r
  | cons b rest ih =>
    have hfirst := hact r b
    have hrest : (rest.map (room (act b r).2.quiet.store)).sum ≤
        (rest.map (room r.quiet.store)).sum :=
      List.sum_le_sum fun b _ => hroom b hfirst.schemas
    rw [List.map_cons, List.sum_cons]
    exact hfirst.trans ((ih _).mono hrest)

theorem spends_removals (r : Mirror) (removals : List (Id × Option Token)) :
    r.Spends ((removals.forM fun (id, token?) => Receiver.applyRemoval id token? :
      StateM Mirror Unit) r).2 0 := by
  have h := spends_forM (fun _ _ => 0) (fun _ _ => Nat.le_refl _) spends_dismiss removals r
  exact h.mono (by simp)

theorem spends_handle (r : Mirror) (message : Message) :
    r.Spends (r.receive [message]) (r.quiet.store.roomFor message) := by
  cases message with
  | valueChanged updates =>
    exact spends_forM Store.room (fun update h => Store.room_le h update) spends_applyUpdate
      updates r
  | valueRemoved ids tokens => exact spends_removals r _
  | result sequence status values =>
    cases status with
    | success =>
      exact (spends_forM (fun s value => s.room (.set value)) (fun _ _ => Nat.le_refl _)
        spends_applyValue values r).answered _
    | notFound =>
      have hvalues := spends_removals r (values.map fun value => (value.id, none))
      rw [List.forM_eq_forM, List.forM_map] at hvalues
      exact hvalues.answered _
    | other code => exact (Spends.refl r).answered _
  | _ => exact .refl r

/-- The messages that are sent because of a message are paid for. -/
theorem caused_le (r : Mirror) (message : Message) :
    2 * (r.receive [message]).quiet.store.size + (r.caused message).length ≤
      2 * (r.quiet.store.size + r.quiet.store.roomFor message) := by
  obtain ⟨new, hnew, -, hsize⟩ := (spends_handle r message).events
  rwa [caused, news, hnew, List.drop_left]

/-- There is nothing but removals among them, and these bring nothing into being. -/
theorem roomFor_caused {message sent : Message} (h : sent ∈ r.caused message) (s : Store) :
    s.roomFor sent = 0 := by
  obtain ⟨new, hnew, hremote, -⟩ := (spends_handle r message).events
  rw [caused, news, hnew, List.drop_left] at h
  obtain ⟨event, hevent, hsent⟩ := List.mem_filterMap.mp h
  have horigin := hremote event hevent
  cases event with
  | removed id token origin =>
    cases hsent
    rfl
  | _ =>
    rw [Event.Silent.message? ⟨horigin, rfl⟩] at hsent
    cases hsent

end Mirror

/-! ## The weight of a state -/

/-- The values that are there or may still come, each for two, and the messages. -/
def Peer.weight (p : Peer) : Nat :=
  2 * (p.mirror.quiet.store.size + (p.inbox.map p.mirror.quiet.store.roomFor).sum) +
    p.inbox.length

namespace Peer

variable {p : Peer} {before after : List Message} {message : Message}

theorem weight_receive (h : p.inbox = before ++ message :: after) :
    ({ mirror := p.mirror.receive [message], inbox := before ++ after } : Peer).weight +
      (p.mirror.caused message).length + 1 ≤ p.weight := by
  have hpaid := p.mirror.caused_le message
  have hschemas := (Mirror.spends_handle p.mirror message).schemas
  have hroom (messages : List Message) :
      (messages.map (p.mirror.receive [message]).quiet.store.roomFor).sum ≤
        (messages.map p.mirror.quiet.store.roomFor).sum :=
    List.sum_le_sum fun m _ => Store.roomFor_le hschemas m
  have hbefore := hroom before
  have hafter := hroom after
  simp only [weight, h, List.map_append, List.map_cons, List.sum_append, List.sum_cons,
    List.length_append, List.length_cons]
  omega

theorem weight_push (p : Peer) (r : Mirror) (message : Message) :
    { p with inbox := p.inbox ++ r.caused message }.weight =
      p.weight + (r.caused message).length := by
  have hnone : ((r.caused message).map p.mirror.quiet.store.roomFor).sum = 0 := by
    rw [List.sum_eq_zero_iff_forall_eq_nat]
    intro room hroom
    obtain ⟨sent, hsent, rfl⟩ := List.mem_map.mp hroom
    exact Mirror.roomFor_caused hsent _
  simp only [weight, List.map_append, List.sum_append, hnone, List.length_append]
  omega

end Peer

namespace Exchange

variable {x y z : Exchange} {n m : Nat}

def weight (x : Exchange) : Nat := x.near.weight + x.far.weight

theorem Delivery.weight_lt (h : Delivery x y) : y.weight < x.weight := by
  cases h with
  | @near before after message hinbox =>
    have hnear := Peer.weight_receive hinbox
    have hfar := x.far.weight_push x.near.mirror message
    unfold weight
    dsimp only
    omega
  | @far before after message hinbox =>
    have hfar := Peer.weight_receive hinbox
    have hnear := x.near.weight_push x.far.mirror message
    unfold weight
    dsimp only
    omega

/-! ## Runs -/

theorem Deliveries.trans (h : Deliveries n x y) (h' : Deliveries m y z) :
    Deliveries (n + m) x z := by
  induction h with
  | none => rwa [Nat.zero_add]
  | next hfirst _ ih =>
    rw [Nat.add_right_comm]
    exact .next hfirst (ih h')

theorem Deliveries.weight_le (h : Deliveries n x y) : n + y.weight ≤ x.weight := by
  induction h with
  | none => exact (Nat.zero_add _).le
  | next hfirst _ ih =>
    have := hfirst.weight_lt
    omega

/-- Whatever is in flight can be delivered. -/
theorem exists_delivery (h : x.inFlight ≠ []) : ∃ y, Delivery x y := by
  obtain ⟨⟨near, inbox⟩, ⟨far, inbox'⟩⟩ := x
  cases inbox with
  | cons message rest => exact ⟨_, .near (List.nil_append _).symm⟩
  | nil =>
    cases inbox' with
    | cons message rest => exact ⟨_, .far (List.nil_append _).symm⟩
    | nil => exact absurd rfl h

theorem inFlight_of_delivery (h : Delivery x y) : x.inFlight ≠ [] := by
  cases h with
  | near hinbox => simp [inFlight, hinbox]
  | far hinbox => simp [inFlight, hinbox]

/-- However deliveries are chosen, there comes an end. -/
theorem exists_settled (x : Exchange) : ∃ n y, Deliveries n x y ∧ y.inFlight = [] := by
  induction hweight : x.weight using Nat.strongRecOn generalizing x with
  | ind weight ih =>
    by_cases hdone : x.inFlight = []
    · exact ⟨0, x, .none, hdone⟩
    · obtain ⟨y, hfirst⟩ := exists_delivery hdone
      obtain ⟨n, z, hrest, hz⟩ := ih y.weight (hweight ▸ hfirst.weight_lt) y rfl
      exact ⟨n + 1, z, .next hfirst hrest, hz⟩

/-- What becomes of all the messages in flight. -/
structure Settles (x : Exchange) : Prop where
  /-- There are no more deliveries than the weight says. -/
  bounded {n : Nat} {y : Exchange} : Deliveries n x y → n ≤ x.weight
  /-- No run goes on forever. -/
  finite : ¬∃ run : Nat → Exchange, run 0 = x ∧ ∀ n, Delivery (run n) (run (n + 1))
  /-- A run comes to an end just where nothing is in flight. -/
  ends {n : Nat} {y : Exchange} :
    Deliveries n x y → ((∀ z, ¬Delivery y z) ↔ y.inFlight = [])
  /-- However far a run has come, it can be brought to such an end. -/
  settled {n : Nat} {y : Exchange} :
    Deliveries n x y → ∃ m z, Deliveries (n + m) x z ∧ Deliveries m y z ∧ z.inFlight = []

/-- Whatever the stores hold, whatever is hidden and whatever is in flight, the two ends come to
rest, in whichever order messages are delivered. -/
theorem settles (x : Exchange) : x.Settles where
  bounded h := Nat.le_of_add_right_le h.weight_le
  finite := by
    rintro ⟨run, rfl, hrun⟩
    have hall (n : Nat) : Deliveries n (run 0) (run n) := by
      induction n with
      | zero => exact .none
      | succ n ih => exact ih.trans (.next (hrun n) .none)
    have hlong := (hall ((run 0).weight + 1)).weight_le
    omega
  ends _ := by
    constructor
    · intro hstuck
      by_contra hflight
      obtain ⟨z, hz⟩ := exists_delivery hflight
      exact hstuck z hz
    · intro hnone z hz
      exact inFlight_of_delivery hz hnone
  settled {n y} h := by
    obtain ⟨m, z, hrest, hz⟩ := exists_settled y
    exact ⟨m, z, h.trans hrest, hrest, hz⟩

end Exchange

end ValueTree
