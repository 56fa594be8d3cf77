import ValueTree.Proofs.Session.Resync

/-!
# Subscriptions that survive

The authority forgets every subscription with the connection. What a client subscribes to anew is
not what it subscribed to, but what its store says: an id is covered again just where a value says
something at the id itself or further up.
-/

namespace ValueTree

/-- A subscription waits to be sent that lists the id or one further up. -/
def Outbox.Covers (o : Outbox) (x : Id) : Prop :=
  ∃ number ids, .subscribe number ids ∈ o.messages ∧ ∃ p ∈ ids, x.startsWith p = true

/-- A value says something at the id or further up. -/
def Store.Informs (s : Store) (x : Id) : Prop :=
  ∃ p value, s.get? p = some value ∧ value.hasData = true ∧ x.startsWith p = true

theorem subscribe_mem_anew {app : String} {s : Store} {roots : List Id} {values : List Value}
    {n number : UInt32} {ids : List Id} : .subscribe number ids ∈ anew app s roots values n ↔
      values ≠ [] ∧ number = n ∧ ids = values.map (·.id) := by
  unfold anew
  by_cases hroots : roots = [] <;> by_cases hvalues : values = [] <;> simp [hroots, hvalues]

theorem Client.exists_currentValues {s : Store} (h : s.Indexed) {x : Id} :
    (∃ value ∈ currentValues s, x.startsWith value.id = true) ↔ s.Informs x := by
  constructor
  · rintro ⟨value, hvalue, hx⟩
    obtain ⟨⟨p, hget⟩, hdata⟩ := (mem_currentValues h).mp hvalue
    exact ⟨p, value, hget, hdata, h.id_of_get? hget ▸ hx⟩
  · rintro ⟨p, value, hget, hdata, hx⟩
    exact ⟨value, (mem_currentValues h).mpr ⟨⟨p, hget⟩, hdata⟩, (h.id_of_get? hget).symm ▸ hx⟩

/-- The subscription that is sent anew covers what the store has something to say about. -/
theorem covers_of_lost {s t : Session} (hs : s.Sound) (h : Instant s .lost t) (x : Id) :
    t.wire.outbox.Covers x ↔ s.store.Informs x := by
  obtain ⟨seat, hseat, -, rfl⟩ := h.of_lost
  rw [Outbox.Covers, messages_lost hs hseat, ← Client.exists_currentValues hs.indexed]
  simp only [subscribe_mem_anew]
  constructor
  · rintro ⟨number, ids, ⟨-, -, rfl⟩, p, hp, hx⟩
    obtain ⟨value, hvalue, rfl⟩ := List.mem_map.mp hp
    exact ⟨value, hvalue, hx⟩
  · rintro ⟨value, hvalue, hx⟩
    exact ⟨_, _, ⟨List.ne_nil_of_mem hvalue, rfl, rfl⟩, _, List.mem_map_of_mem hvalue, hx⟩

theorem messages_onDisconnected {s : Session} {seat : ClientSeat} (hseat : s.client = some seat)
    (h : seat.client.connection ≠ .connected) (carryOut : Callback → Session → Session) :
    ((Client.onDisconnected : Run Unit) carryOut s).2.wire.outbox.messages =
      s.wire.outbox.messages := by
  have hdown : s.goDown.wire.outbox.messages = s.wire.outbox.messages :=
    Wire.messages_setConnected false
  rw [Client.onDisconnected_apply hseat, if_neg h]
  split
  · exact (congrArg Outbox.messages (Wire.Apart.arm s.goDown.wire).outbox).trans hdown
  · exact hdown

/-- What becomes of the subscriptions of a client that connects again. -/
structure CoverageKept (start : Session) : Prop where
  /-- Whatever is asked of the session, it is one moment after the other. -/
  trail (commands : List Command) : ∃ moments, Trail moments start (start.steps commands).2
  /-- Whenever a client that is connected handles a loss, it is such a moment. -/
  handled {before : List Moment} {s : Session} {seat : ClientSeat}
    (carryOut : Callback → Session → Session) : Trail before start s → s.client = some seat →
      seat.client.connection = .connected →
        Instant s .lost ((Client.onDisconnected : Run Unit) carryOut s).2
  /-- An id is covered afterwards just if the store says something there or further up, whether
  there was a subscription to it or not. -/
  covered {before : List Moment} {s t : Session} : Trail before start s → Instant s .lost t →
    ∀ x, t.wire.outbox.Covers x ↔ s.store.Informs x
  /-- A client that does not count as connected leaves its outbox as it is. -/
  kept {before : List Moment} {s : Session} {seat : ClientSeat}
    (carryOut : Callback → Session → Session) : Trail before start s → s.client = some seat →
      seat.client.connection ≠ .connected →
        ((Client.onDisconnected : Run Unit) carryOut s).2.wire.outbox.messages =
          s.wire.outbox.messages

/-- A subscription survives the loss of a connection where the store has something to say. -/
theorem Session.coverageKept (files : FileTree) (config : ClientConfig) :
    CoverageKept ((fresh files).seatClient { config with autoReconnect := true }) where
  trail commands := Trail.of_passage (passage_steps _ commands)
  handled carryOut htrail hseat hconnected :=
    instant_lost htrail hseat hconnected carryOut
  covered htrail hlost := covers_of_lost ((Sound.start files _).trail htrail) hlost
  kept carryOut _ hseat hnot := messages_onDisconnected hseat hnot carryOut

/-- What says nothing yet is forgotten with the connection, although it was subscribed to. -/
theorem Session.subscription_forgotten :
    let config : ClientConfig := { app := "svc" }
    let s := (((fresh {}).seatClient config).steps
      [.request (.subscribe [⟨["a"]⟩]) "first" [] 0, .client .start, .wire .run]).2
    let t := (s.steps [.wire .lose, .wire .run]).2
    config.autoReconnect = true ∧
      s.wire.link.takeMessages.1.toOption = some [.subscribe 1 [⟨["a"]⟩]] ∧
      s.client.map (·.client.connection) = some .connected ∧
      t.client.map (·.client.connection) = some .disconnected ∧
      t.store.get? ⟨["a"]⟩ = some ⟨⟨["a"]⟩, .readWrite, .unset⟩ ∧
      ¬t.wire.outbox.Covers ⟨["a"]⟩ := by
  intro config s t
  have hempty : t.wire.outbox.messages = [] := by decide +kernel
  refine ⟨rfl, by decide +kernel, by decide +kernel, by decide +kernel, by decide +kernel, ?_⟩
  rintro ⟨number, ids, hmem, -⟩
  rw [hempty] at hmem
  cases hmem

end ValueTree
