import Mathlib.Data.List.Basic
import ValueTree.Proofs.Session.Trail

/-!
# Sending anew

When a client loses its connection and is to connect again, what was left to send makes way for the
entries of the application, the values of the store and a subscription to them. Whatever happens
until the next connection, they are the first that is written on it. A message that is too long
for a frame is left out.
-/

namespace ValueTree

/-! ## What is sent anew -/

/-- The entry of an application at a root. -/
def entryAt (app : String) (s : Store) (root : Id) : List Update :=
  .addKey root app :: ((s.get? ⟨root.segments ++ [app]⟩).map Update.set).toList

/-- The entries at some roots, some values, and a subscription to them. -/
def anew (app : String) (s : Store) (roots : List Id) (values : List Value) (number : UInt32) :
    List Message :=
  (if roots = [] then [] else [.valueChanged (roots.flatMap (entryAt app s))]) ++
    if values = [] then []
    else [.valueChanged (values.map .set), .subscribe number (values.map (·.id))]

theorem entryUpdates_eq {app : String} {root entry : Id} (h : root.join app = .ok entry)
    (s : Store) : Client.entryUpdates app s root = entryAt app s root := by
  unfold Client.entryUpdates entryAt
  rw [h]
  unfold Id.join at h
  split at h
  · cases h
  · cases h
    rfl

theorem renewal_eq {c : Client Completion}
    (hjoined : ∀ root ∈ c.entries, ∃ entry, root.join c.config.app = .ok entry) (s : Store) :
    c.renewal s = anew c.config.app s c.entries (Client.currentValues s) c.nextSequence := by
  have hentries : c.entries.flatMap (Client.entryUpdates c.config.app s) =
      c.entries.flatMap (entryAt c.config.app s) := by
    refine List.flatMap_congr fun root hroot => ?_
    obtain ⟨entry, hjoin⟩ := hjoined root hroot
    exact entryUpdates_eq hjoin s
  have hnone : c.entries.flatMap (entryAt c.config.app s) = [] ↔ c.entries = [] := by
    cases c.entries <;> simp [entryAt]
  unfold Client.renewal anew
  simp only [hentries, List.isEmpty_iff, hnone]

namespace Client

variable {s : Store}

theorem mem_currentValues (h : s.Indexed) {value : Value} :
    value ∈ currentValues s ↔ (∃ id, s.get? id = some value) ∧ value.hasData = true := by
  rw [currentValues, List.mem_filter, h.mem_values]

end Client

/-! ## The loss of a connection -/

/-- The next connection comes up after some moments, and after some more it is still there. -/
structure NextConnection (t : Session) (waiting during : List Moment) (v : Session) : Prop where
  up : ∃ u, Trail waiting t u ∧ u.wire.link.connected = true ∧ Trail during u.comeUp v
  next : .up ∉ waiting
  lasts : ∀ moment ∈ during, ¬moment.Ends

theorem Session.Sound.start (files : FileTree) (config : ClientConfig) :
    ((fresh files).seatClient config).Sound where
  indexed := .empty
  accounted := .start files config
  timers := nofun
  awake _ := ⟨rfl, rfl, List.not_mem_nil⟩
  joined {seat} hseat root hroot := by
    rw [client_seatClient] at hseat
    cases hseat
    cases hroot

section

variable {s t u v : Session} {seat : ClientSeat} {waiting during : List Moment}

/-- The messages that stand in the outbox after a loss. -/
theorem messages_lost (hs : s.Sound) (hseat : s.client = some seat) :
    (s.goDown.renew seat.client).armRetry.wire.outbox.messages =
      anew seat.client.config.app s.store seat.client.entries (Client.currentValues s.store)
        seat.client.nextSequence := by
  have harm := (Wire.Apart.arm (s.goDown.renew seat.client).wire).outbox
  rw [← renewal_eq (hs.joined hseat)]
  exact (congrArg Outbox.messages harm).trans (Wire.messages_pushAll _)

end

/-! ## The next connection -/

/-- What waits stays where it is until a connection comes up. -/
theorem Trail.waiting {moments : List Moment} {t u : Session} (h : Trail moments t u)
    (ht : t.Offline) (hup : .up ∉ moments) : takenIn moments = [] ∧
      u.wire.outbox.messages = t.wire.outbox.messages ++ queuedIn moments := by
  obtain ⟨hnone, hkept⟩ := h.offline ht hup
  have hmessages := h.messages hkept
  rw [hnone] at hmessages
  exact ⟨hnone, hmessages.symm⟩

namespace NextConnection

variable {t v : Session} {waiting during : List Moment}

/-- That the connection comes up is a moment too. -/
theorem trail (h : NextConnection t waiting during v) :
    ∃ u, Trail waiting t u ∧ Trail (.up :: during) u v := by
  obtain ⟨u, hwaiting, -, hduring⟩ := h.up
  exact ⟨u, hwaiting, .cons (.act .up) hduring⟩

/-- All that is taken off on the next connection is written, if a frame can hold it. -/
theorem written (h : NextConnection t waiting during v) :
    writtenIn during = (takenIn during).filter (·.Fits) ∧ v.wire.outbox.connected = true := by
  obtain ⟨u, -, hlink, hduring⟩ := h.up
  have hup : Instant u .up u.comeUp := .act .up
  exact hduring.written hup.shift.connected (hup.shift.link.trans hlink) h.lasts

theorem order (h : NextConnection t waiting during v) (ht : t.Offline) :
    takenIn during ++ v.wire.outbox.messages =
      t.wire.outbox.messages ++ (queuedIn waiting ++ queuedIn during) := by
  obtain ⟨u, hwaiting, hduring⟩ := h.trail
  have hkept : .lost ∉ Moment.up :: during := by
    rw [List.mem_cons, not_or]
    exact ⟨nofun, fun hlost => h.lasts _ hlost (Or.inl rfl)⟩
  have hmessages := hduring.messages hkept
  rw [← List.append_assoc, ← (hwaiting.waiting ht h.next).2]
  exact hmessages.symm

theorem first (h : NextConnection t waiting during v) (ht : t.Offline) :
    t.wire.outbox.messages.filter (·.Fits) <+: writtenIn during ∨
      writtenIn during <+: t.wire.outbox.messages.filter (·.Fits) := by
  have hstands : t.wire.outbox.messages <+: takenIn during ++ v.wire.outbox.messages := by
    rw [h.order ht]
    exact List.prefix_append _ _
  rw [h.written.1]
  exact (List.prefix_or_prefix_of_prefix hstands (List.prefix_append _ _)).imp
    (·.filter _) (·.filter _)

theorem whole (h : NextConnection t waiting during v) (ht : t.Offline)
    (hfit : ∀ message ∈ t.wire.outbox.messages, message.Fits) :
    t.wire.outbox.messages <+: writtenIn during ∨
      writtenIn during <+: t.wire.outbox.messages := by
  have hfirst := h.first ht
  rwa [Message.filter_fits hfit] at hfirst

theorem sound (h : NextConnection t waiting during v) (ht : t.Sound) : v.Sound := by
  obtain ⟨u, hwaiting, hduring⟩ := h.trail
  exact (ht.trail hwaiting).trail hduring

theorem idle (h : NextConnection t waiting during v) (ht : t.Offline) (hsound : t.Sound)
    (hsome : v.client.isSome = true) (htasks : v.wire.agenda.tasks = []) :
    takenIn during = t.wire.outbox.messages ++ (queuedIn waiting ++ queuedIn during) := by
  have horder := h.order ht
  rw [(h.sound hsound).idle hsome h.written.2 htasks, List.append_nil] at horder
  exact horder

end NextConnection

/-! ## Every run -/

/-- Whenever a client that is connected handles a loss, there is to be a connection again. -/
theorem instant_lost {files : FileTree} {config : ClientConfig} {before : List Moment}
    {s : Session} {seat : ClientSeat}
    (htrail : Trail before
      ((Session.fresh files).seatClient { config with autoReconnect := true }) s)
    (hseat : s.client = some seat) (hconnected : seat.client.connection = .connected)
    (carryOut : Callback → Session → Session) :
    Instant s .lost ((Client.onDisconnected : Run Unit) carryOut s).2 := by
  obtain ⟨first, hfirst, hconfig, -⟩ := htrail.client hseat
  rw [Session.client_seatClient] at hfirst
  cases hfirst
  have hauto : seat.client.config.autoReconnect = true := by rw [hconfig]; rfl
  rw [Client.onDisconnected_apply hseat, if_pos hauto, if_pos hconnected]
  exact .act (.lost hseat hauto hconnected)

example : (((Session.fresh {}).seatClient { app := "log" }).steps
    [.change (.set ⟨["a"]⟩ (.bool true) .local), .client .start, .wire .run,
      .client (.register ⟨["dmo"]⟩), .wire .lose, .wire .run]).2.wire.outbox.messages =
        [.valueChanged [.addKey ⟨["dmo"]⟩ "log", .set ⟨⟨["dmo", "log"]⟩, .readWrite, .struct⟩],
          .valueChanged [.set ⟨⟨["a"]⟩, .readWrite, .bool true⟩], .subscribe 1 [⟨["a"]⟩]] := by
  decide +kernel

end ValueTree
