import ValueTree.Proofs.Session.Completions

/-!
# Trails

A passage laid out as one moment after the other. What is queued, what is taken off the outbox and
written, and when the connection comes and goes can be read off a trail, and whatever each moment
keeps holds at every point of it.
-/

namespace ValueTree

/-! ## Moments -/

namespace Moment

def queued? : Moment → Option Message
  | queued message => some message
  | _ => none

def taken? : Moment → Option Message
  | taken message _ => some message
  | _ => none

/-- What the link took. -/
def written? : Moment → Option Message
  | taken message true => some message
  | _ => none

/-- The outbox may send afterwards, given that it could or could not before. -/
def opens (before : Bool) : Moment → Bool
  | up => true
  | down | lost | stopped => false
  | _ => before

/-- The link is up afterwards, given that it was or was not before. -/
def links (before : Bool) : Moment → Bool
  | linked connected => connected
  | stopped => false
  | _ => before

/-- With this moment a connection is over. -/
def Ends (m : Moment) : Prop := m.opens true = false ∨ m.links true = false

/-- What a moment shows is what the wire does. -/
structure Shift (m : Moment) (w v : Wire LinkEvent) : Prop where
  messages : m ≠ .lost →
    w.outbox.messages ++ m.queued?.toList = m.taken?.toList ++ v.outbox.messages
  connected : v.outbox.connected = m.opens w.outbox.connected
  link : v.link.connected = m.links w.link.connected
  taken {message : Message} {written : Bool} : m = .taken message written →
    w.outbox.connected = true ∧ written = (w.link.connected && message.Fits) ∧
      v.link = w.link.sendMessage w.framing message

namespace Shift

variable {w v : Wire LinkEvent}

theorem apart (h : w.Apart v) : Shift .quiet w v where
  messages _ := by simp [queued?, taken?, h.outbox]
  connected := congrArg Outbox.connected h.outbox
  link := h.link
  taken := nofun

theorem quiet (houtbox : v.outbox = w.outbox) (hlink : v.link = w.link) : Shift .quiet w v where
  messages _ := by simp [queued?, taken?, houtbox]
  connected := congrArg Outbox.connected houtbox
  link := congrArg Link.connected hlink
  taken := nofun

theorem queued (w : Wire LinkEvent) (message : Message) :
    Shift (.queued message) w (w.push message) where
  messages _ := (Wire.messages_push message).symm
  connected := Wire.connected_push message
  link := congrArg Link.connected (Wire.link_push message)
  taken := nofun

theorem drained (w : Wire LinkEvent) (agenda : Agenda (Job LinkEvent)) :
    Shift (.drained w) w { w with agenda }.drain := by
  obtain ⟨before, link, ⟨messages, connected, draining⟩, reconnector, framing⟩ := w
  cases connected with
  | false => exact ⟨fun _ => List.append_nil messages, rfl, rfl, nofun⟩
  | true =>
    cases messages with
    | nil => exact ⟨fun _ => rfl, rfl, rfl, nofun⟩
    | cons message rest =>
      refine ⟨fun _ => List.append_nil _, rfl, link.connected_sendMessage _ _, fun hmoment => ?_⟩
      obtain ⟨rfl, rfl⟩ := Moment.taken.inj hmoment
      exact ⟨rfl, rfl, rfl⟩

end Shift

end Moment

theorem Session.apart_tendClient (s : Session) (f : Tenure → Tenure) :
    s.wire.Apart (s.tendClient f).wire := by
  unfold Session.tendClient
  split
  · exact .refl _
  · dsimp only
    split
    · exact .stop _
    · exact .refl _

theorem Act.shift {moment : Moment} {s t : Session} (h : Act s moment t) :
    moment.Shift s.wire t.wire := by
  cases h with
  | aside _ _ _ hwire => exact .quiet (by rw [hwire]) (by rw [hwire])
  | queue message => exact .queued _ message
  | wire hapart => exact .apart hapart
  | link link => exact ⟨fun _ => List.append_nil _, rfl, rfl, nofun⟩
  | drain _ _ | timed _ _ => exact .drained _ _
  | up =>
    have hup := Wire.Apart.connectionUp s.wire
    refine ⟨fun _ => ?_, Wire.connected_setConnected true, ?_, nofun⟩
    · exact (List.append_nil _).trans
        ((congrArg Outbox.messages hup.outbox).symm.trans (Wire.messages_setConnected true).symm)
    · exact (congrArg Link.connected (Wire.link_setConnected true)).trans hup.link
  | down _ _ => exact ⟨fun _ => List.append_nil _, rfl, rfl, nofun⟩
  | @lost seat _ _ _ =>
    -- What waited is gone, so only the connection and the link are left to speak of.
    let cleared := (s.wire.setConnected false).clear
    have harm := Wire.Apart.arm ((seat.client.renewal s.store).foldl Wire.push cleared)
    refine ⟨fun hlost => absurd rfl hlost, ?_, ?_, nofun⟩
    · exact (congrArg Outbox.connected harm.outbox).trans (Wire.connected_pushAll _)
    · exact harm.link.trans (congrArg Link.connected (Wire.link_pushAll _))
  | shutDown =>
    have hstop := Wire.Apart.stop s.wire
    refine ⟨fun _ => ?_, rfl, rfl, nofun⟩
    exact (List.append_nil _).trans (congrArg Outbox.messages hstop.outbox).symm
  | enter _ _ => exact ⟨fun _ => List.append_nil _, rfl, rfl, nofun⟩
  | release => exact .apart (s.apart_tendClient _)
  | _ => exact .quiet rfl rfl

/-! ## Trails -/

/-- One moment of a session: an act, or what stands around the acts of a passage. -/
inductive Instant (s : Session) : Moment → Session → Prop
  | act {moment : Moment} {t : Session} : Act s moment t → Instant s moment t
  | hold : Instant s .quiet (s.tendClient Tenure.hold)
  | letGo : Instant s .quiet (s.tendClient Tenure.letGo)
  | receive {seat : ClientSeat} (bytes : List UInt8) : s.client = some seat →
    Instant s .quiet ((s.adjustClient fun c => (c.receive bytes).2).record
      (.received bytes (seat.client.receive bytes).1))
  | begin (message : Message) : Instant s .quiet (s.record (.began message))
  | finish (message : Message) : Instant s .quiet (s.record (.ended message))

inductive Trail : List Moment → Session → Session → Prop
  | nil (s : Session) : Trail [] s s
  | cons {moment : Moment} {rest : List Moment} {s t u : Session} :
    Instant s moment t → Trail rest t u → Trail (moment :: rest) s u

namespace Trail

variable {moments before after : List Moment} {s t u : Session}

theorem single {moment : Moment} (h : Instant s moment t) : Trail [moment] s t :=
  .cons h (.nil t)

theorem append (h : Trail before s t) (h' : Trail after t u) : Trail (before ++ after) s u := by
  induction h with
  | nil _ => exact h'
  | cons hfirst _ ih => exact .cons hfirst (ih h')

theorem of_passage {messages : List Message} (h : Passage messages s t) :
    ∃ moments, Trail moments s t := by
  induction h with
  | refl s => exact ⟨_, .nil s⟩
  | act h => exact ⟨_, .single (.act h)⟩
  | trans _ _ ih₁ ih₂ =>
    obtain ⟨_, h₁⟩ := ih₁
    obtain ⟨_, h₂⟩ := ih₂
    exact ⟨_, h₁.append h₂⟩
  | held _ _ ih =>
    obtain ⟨_, h⟩ := ih
    exact ⟨_, .cons .hold (h.append (.single .letGo))⟩
  | receive bytes hseat _ ih =>
    obtain ⟨_, h⟩ := ih
    exact ⟨_, .cons (.receive bytes hseat) h⟩
  | within _ ih => exact ih
  | handle _ _ ih₁ ih₂ =>
    obtain ⟨_, h₁⟩ := ih₁
    obtain ⟨_, h₂⟩ := ih₂
    exact ⟨_, .cons (.begin _) (h₁.append (.cons (.finish _) h₂))⟩

end Trail

theorem Instant.shift {moment : Moment} {s t : Session} (h : Instant s moment t) :
    moment.Shift s.wire t.wire := by
  cases h with
  | act h => exact h.shift
  | hold | letGo => exact .apart (s.apart_tendClient _)
  | receive _ _ | begin _ | finish _ => exact .quiet rfl rfl

/-! ## What was sent -/

def queuedIn (moments : List Moment) : List Message := moments.flatMap (·.queued?.toList)

def takenIn (moments : List Moment) : List Message := moments.flatMap (·.taken?.toList)

def writtenIn (moments : List Moment) : List Message := moments.flatMap (·.written?.toList)

namespace Moment.Shift

variable {moment : Moment} {w v : Wire LinkEvent}

theorem taken?_eq_none (h : moment.Shift w v) (hdown : w.outbox.connected = false) :
    moment.taken? = none := by
  cases moment with
  | taken message written =>
    have hconnected := (h.taken rfl).1
    rw [hdown] at hconnected
    cases hconnected
  | _ => rfl

/-- A link that is up is given all that a frame can hold. -/
theorem written?_eq (h : moment.Shift w v) (hlink : w.link.connected = true) :
    moment.written? = moment.taken?.filter (·.Fits) := by
  cases moment with
  | taken message written =>
    have hwritten := (h.taken rfl).2.1
    rw [hlink, Bool.true_and] at hwritten
    by_cases hfits : message.Fits <;> simp [hwritten, written?, taken?, Option.filter_some, hfits]
  | _ => rfl

/-- What is written goes on the link in its frame. -/
theorem sent {message : Message} (h : Shift (.taken message true) w v) :
    ∃ frame, message.frame? w.framing = .ok frame ∧
      v.link = { w.link with sent := w.link.sent ++ [frame] } := by
  obtain ⟨-, hwritten, hlink⟩ := h.taken rfl
  obtain ⟨hup, hfits⟩ : w.link.connected = true ∧ message.Fits := by simpa using hwritten
  refine ⟨_, Message.frame?_of_fits hfits w.framing, ?_⟩
  rw [hlink, Link.sendMessage_of_fits _ _ hfits, Link.send, if_pos hup]

theorem unsent {message : Message} (h : Shift (.taken message false) w v) :
    v.link = w.link := by
  obtain ⟨-, hwritten, hlink⟩ := h.taken rfl
  by_cases hfits : message.Fits
  · have hdown : w.link.connected = false := by simpa [hfits] using hwritten
    rw [hlink, Link.sendMessage_of_fits _ _ hfits, Link.send, if_neg (by simp [hdown])]
  · rw [hlink, Link.sendMessage_of_not_fits _ _ hfits]

end Moment.Shift

theorem Moment.opens_eq_false {moment : Moment} (h : moment ≠ .up) :
    moment.opens false = false := by
  cases moment with
  | up => exact absurd rfl h
  | _ => rfl

namespace Trail

variable {moments : List Moment} {s t : Session}

/-- Nothing is taken off but what waited or was queued, and in this order. -/
theorem messages (h : Trail moments s t) (hkept : .lost ∉ moments) :
    s.wire.outbox.messages ++ queuedIn moments = takenIn moments ++ t.wire.outbox.messages := by
  induction h with
  | nil _ => exact List.append_nil _
  | cons hfirst _ ih =>
    rw [List.mem_cons, not_or] at hkept
    have hshift := hfirst.shift.messages (Ne.symm hkept.1)
    rw [queuedIn, takenIn, List.flatMap_cons, List.flatMap_cons, ← List.append_assoc, hshift,
      List.append_assoc, List.append_assoc]
    exact congrArg _ (ih hkept.2)

/-- As long as the connection lasts all that is taken off is written, if a frame can hold it. -/
theorem written (h : Trail moments s t) (hconnected : s.wire.outbox.connected = true)
    (hlink : s.wire.link.connected = true) (hlasts : ∀ moment ∈ moments, ¬moment.Ends) :
    writtenIn moments = (takenIn moments).filter (·.Fits) ∧ t.wire.outbox.connected = true := by
  induction h with
  | nil _ => exact ⟨rfl, hconnected⟩
  | cons hfirst _ ih =>
    obtain ⟨hthis, hlater⟩ := List.forall_mem_cons.mp hlasts
    have hshift := hfirst.shift
    have hopen := hshift.connected
    have hlinked := hshift.link
    rw [Moment.Ends, not_or, Bool.not_eq_false, Bool.not_eq_false] at hthis
    rw [hconnected, hthis.1] at hopen
    rw [hlink, hthis.2] at hlinked
    obtain ⟨hrest, hend⟩ := ih hopen hlinked hlater
    refine ⟨?_, hend⟩
    rw [writtenIn, takenIn, List.flatMap_cons, List.flatMap_cons, List.filter_append,
      hshift.written?_eq hlink, Option.toList_filter]
    exact congrArg _ hrest

end Trail

/-! ## What holds at every point -/

theorem Instant.client {moment : Moment} {s t : Session} (h : Instant s moment t)
    {after : ClientSeat} (ht : t.client = some after) :
    ∃ seat, s.client = some seat ∧ moment.Tends seat.client after.client := by
  cases h with
  | act h => exact h.client ht
  | hold | letGo =>
    obtain ⟨seat, hseat, hsame⟩ := Course.client_tendClient ht
    exact ⟨seat, hseat, .quiet hsame⟩
  | receive _ _ =>
    obtain ⟨seat, hseat, rfl⟩ := Option.map_eq_some_iff.mp ht
    exact ⟨seat, hseat, rfl, rfl, Or.inr⟩
  | begin _ | finish _ => exact ⟨after, ht, .quiet rfl⟩

theorem Trail.client {moments : List Moment} {s t : Session} (h : Trail moments s t)
    {after : ClientSeat} (ht : t.client = some after) :
    ∃ seat, s.client = some seat ∧ after.client.config = seat.client.config ∧
      after.client.entries = moments.foldl Moment.enter seat.client.entries := by
  induction h with
  | nil _ => exact ⟨after, ht, rfl, rfl⟩
  | cons hfirst _ ih =>
    obtain ⟨mid, hmid, hconfig, hentries⟩ := ih ht
    obtain ⟨seat, hseat, htends⟩ := hfirst.client hmid
    exact ⟨seat, hseat, hconfig.trans htends.config, by rw [hentries, htends.entries]; rfl⟩

/-! ### Without a connection -/

/-- The client is not connected, and the outbox may not send. -/
structure Session.Offline (s : Session) : Prop where
  outbox : s.wire.outbox.connected = false
  client {seat : ClientSeat} : s.client = some seat → seat.client.connection ≠ .connected

/-- A loss is the handling of it by a client that was connected. -/
theorem Instant.of_lost {s t : Session} (h : Instant s .lost t) :
    ∃ seat, s.client = some seat ∧ seat.client.connection = .connected ∧
      t = (s.goDown.renew seat.client).armRetry := by
  -- What a drain shows is computed, so the moment must be a variable to split the acts.
  generalize hmoment : Moment.lost = moment at h
  cases h with
  | act h =>
    cases h with
    | lost hseat _ hconnected => exact ⟨_, hseat, hconnected, rfl⟩
    | drain _ _ | timed _ _ =>
      unfold Moment.drained at hmoment
      split at hmoment <;> cases hmoment
    | _ => cases hmoment
  | _ => cases hmoment

theorem Instant.offline {moment : Moment} {s t : Session} (h : Instant s moment t)
    (hs : s.Offline) (hup : moment ≠ .up) : t.Offline where
  outbox := by rw [h.shift.connected, hs.outbox, Moment.opens_eq_false hup]
  client hafter hconnected := by
    obtain ⟨seat, hseat, htends⟩ := h.client hafter
    rcases htends.connected hconnected with hmoment | hbefore
    · exact hup hmoment
    · exact hs.client hseat hbefore

/-- Nothing is taken off, and no connection is lost, before one comes up. -/
theorem Trail.offline {moments : List Moment} {s t : Session} (h : Trail moments s t)
    (hs : s.Offline) (hup : .up ∉ moments) : takenIn moments = [] ∧ .lost ∉ moments := by
  induction h with
  | nil _ => exact ⟨rfl, List.not_mem_nil⟩
  | cons hfirst _ ih =>
    rw [List.mem_cons, not_or] at hup ⊢
    obtain ⟨hrest, hkept⟩ := ih (hfirst.offline hs (Ne.symm hup.1)) hup.2
    refine ⟨?_, ?_, hkept⟩
    · rw [takenIn, List.flatMap_cons, hfirst.shift.taken?_eq_none hs.outbox]
      exact hrest
    · rintro rfl
      obtain ⟨seat, hseat, hconnected, -⟩ := hfirst.of_lost
      -- A loss takes a client that is connected, and this one is not.
      exact hs.client hseat hconnected

/-! ### Stores -/

theorem Session.store_renew (s : Session) (c : Client Completion) :
    (s.renew c).store = s.store := by
  unfold renew
  dsimp only
  split <;> rfl

theorem Session.store_tendClient (s : Session) (f : Tenure → Tenure) :
    (s.tendClient f).store = s.store := by
  unfold tendClient
  split
  · rfl
  · dsimp only
    split <;> rfl

theorem Instant.store {moment : Moment} {s t : Session} (h : Instant s moment t) :
    t.store = s.store ∨ ∃ declared, s.store.Step declared t.store := by
  cases h with
  | act h =>
    cases h with
    | aside hstore _ _ _ => exact Or.inl hstore
    | store hstep => exact Or.inr ⟨_, hstep⟩
    | lost _ _ _ => exact Or.inl (Session.store_renew _ _)
    | release => exact Or.inl (s.store_tendClient _)
    | _ => exact Or.inl rfl
  | hold | letGo => exact Or.inl (s.store_tendClient _)
  | _ => exact Or.inl rfl

/-! ### Books -/

theorem Instant.accounted {moment : Moment} {s t : Session} (h : Instant s moment t)
    (hs : Accounted s) : Accounted t := by
  cases h with
  | act h => exact h.course.accounted hs
  | hold | letGo => exact hs.tend _
  | receive bytes _ =>
    have htaken := hs.adjust (f := fun c => (c.receive bytes).2) fun _ => ⟨rfl, rfl, rfl⟩
    exact htaken.record (fun _ => id) rfl trivial
  | begin _ | finish _ => exact hs.record (fun _ => id) rfl trivial

/-! ### Timers and drains -/

theorem Act.timers {moment : Moment} {s t : Session} (h : Act s moment t)
    {timer : Timer (Job LinkEvent)} (htimer : timer ∈ t.wire.agenda.timers) :
    timer ∈ s.wire.agenda.timers ∨ timer.task = .retry := by
  cases h with
  | aside _ _ _ hwire => exact Or.inl (hwire ▸ htimer)
  | queue _ => exact Or.inl (Wire.timers_push (w := s.wire) _ ▸ htimer)
  | wire hapart => exact hapart.timers htimer
  | drain _ _ =>
    rw [Wire.timers_drain] at htimer
    exact Or.inl htimer
  | timed htimers _ =>
    rw [Wire.timers_drain] at htimer
    exact Or.inl (htimers ▸ List.mem_cons_of_mem _ htimer)
  | up =>
    apply (Wire.Apart.connectionUp s.wire).timers
    rwa [← Wire.timers_setConnected true]
  | @lost seat _ _ _ =>
    have hrenew : (s.goDown.renew seat.client).wire.agenda.timers = s.wire.agenda.timers :=
      Wire.timers_pushAll _
    exact hrenew ▸ (Wire.Apart.arm _).timers htimer
  | shutDown => exact (Wire.Apart.stop s.wire).timers htimer
  | release => exact (s.apart_tendClient _).timers htimer
  | _ => exact Or.inl htimer

theorem Instant.timers {moment : Moment} {s t : Session} (h : Instant s moment t)
    {timer : Timer (Job LinkEvent)} (htimer : timer ∈ t.wire.agenda.timers) :
    timer ∈ s.wire.agenda.timers ∨ timer.task = .retry := by
  cases h with
  | act h => exact h.timers htimer
  | hold | letGo => exact (s.apart_tendClient _).timers htimer
  | _ => exact Or.inl htimer

namespace Wire.Awake

variable {τ : Type} {w v : Wire τ}

theorem apart (h : w.Awake) (ha : w.Apart v) : v.Awake where
  flag := by rw [ha.drains, h.flag, ha.outbox]
  wanted := by rw [ha.outbox, h.wanted]
  calm hretry := by
    rcases ha.tasks hretry with hold | ⟨task, hown⟩
    · exact h.calm hold
    · cases hown

theorem drain (h : w.Awake) {rest : List (Job τ)} (htasks : w.agenda.tasks = .drain :: rest) :
    (w.withTasks rest).drain.Awake := by
  have hnext : w.runNext = (w.withTasks rest).drain := by
    unfold Wire.runNext Agenda.next?
    rw [htasks]
    rfl
  exact hnext ▸ h.runNext

end Wire.Awake

theorem Act.awake {moment : Moment} {s t : Session} (h : Act s moment t)
    (hsome : s.client.isSome = true)
    (htimers : ∀ timer ∈ s.wire.agenda.timers, timer.task = .retry) (hs : s.wire.Awake) :
    t.wire.Awake := by
  cases h with
  | aside _ _ _ hwire => exact hwire ▸ hs
  | queue message => exact hs.push message
  | wire hapart => exact hs.apart hapart
  | link link => exact ⟨hs.flag, hs.wanted, hs.calm⟩
  | drain _ htasks => exact hs.drain htasks
  | pass hnone _ =>
    rw [hnone] at hsome
    cases hsome
  | timed htimers' hdrain =>
    have hretry := htimers _ (htimers' ▸ List.mem_cons_self)
    rw [hdrain] at hretry
    cases hretry
  | up => exact (hs.apart (.connectionUp _)).setConnected true
  | down _ _ => exact hs.setConnected false
  | lost _ _ _ => exact (((hs.setConnected false).clear).pushAll _).apart (.arm _)
  | shutDown =>
    have hstopped := (hs.apart (.stop _)).setConnected false
    exact ⟨hstopped.flag, hstopped.wanted, hstopped.calm⟩
  | release => exact hs.apart (s.apart_tendClient _)
  | _ => exact hs

theorem Instant.awake {moment : Moment} {s t : Session} (h : Instant s moment t)
    (hsome : s.client.isSome = true)
    (htimers : ∀ timer ∈ s.wire.agenda.timers, timer.task = .retry) (hs : s.wire.Awake) :
    t.wire.Awake := by
  cases h with
  | act h => exact h.awake hsome htimers hs
  | hold | letGo => exact hs.apart (s.apart_tendClient _)
  | _ => exact hs

/-! ### Entries -/

theorem Moment.mem_enter {moment : Moment} {entries : List Id} {root : Id}
    (h : root ∈ moment.enter entries) : root ∈ entries ∨ moment = .entered root := by
  cases moment with
  | entered entered =>
    dsimp only [Moment.enter] at h
    split at h
    · exact Or.inl h
    · rcases List.mem_append.mp h with h | h
      · exact Or.inl h
      · exact Or.inr (by rw [List.mem_singleton.mp h])
  | _ => exact Or.inl h

theorem Moment.drained_ne_entered {τ : Type} (w : Wire τ) (root : Id) :
    drained w ≠ .entered root := by
  unfold drained
  split <;> nofun

theorem Instant.joined {root : Id} {s t : Session} (h : Instant s (.entered root) t) :
    ∃ seat entry, s.client = some seat ∧ root.join seat.client.config.app = .ok entry := by
  generalize hmoment : Moment.entered root = moment at h
  cases h with
  | act h =>
    cases h with
    | enter hseat hjoin =>
      cases hmoment
      exact ⟨_, _, hseat, hjoin⟩
    | drain _ _ | timed _ _ => exact absurd hmoment.symm (Moment.drained_ne_entered _ _)
    | _ => cases hmoment
  | _ => cases hmoment

/-! ### All of it -/

/-- What every moment keeps. -/
structure Session.Sound (s : Session) : Prop where
  indexed : s.store.Indexed
  accounted : Accounted s
  /-- Only attempts to connect wait for their time. -/
  timers {timer : Timer (Job LinkEvent)} : timer ∈ s.wire.agenda.timers → timer.task = .retry
  awake : s.client.isSome = true → s.wire.Awake
  /-- Each entry has a place. -/
  joined {seat : ClientSeat} : s.client = some seat → ∀ root ∈ seat.client.entries,
    ∃ entry, root.join seat.client.config.app = .ok entry

namespace Session.Sound

variable {s t : Session}

theorem instant {moment : Moment} (hs : s.Sound) (h : Instant s moment t) : t.Sound where
  indexed := by
    rcases h.store with hstore | ⟨declared, hstep⟩
    · rw [hstore]
      exact hs.indexed
    · exact hs.indexed.edits hstep.edits
  accounted := h.accounted hs.accounted
  timers htimer := (h.timers htimer).elim hs.timers id
  awake hsome := by
    obtain ⟨after, hafter⟩ := Option.isSome_iff_exists.mp hsome
    obtain ⟨seat, hseat, -⟩ := h.client hafter
    have hsome : s.client.isSome = true := by rw [hseat]; rfl
    exact h.awake hsome (fun _ => hs.timers) (hs.awake hsome)
  joined {after} hafter root hroot := by
    obtain ⟨seat, hseat, htends⟩ := h.client hafter
    rw [htends.entries] at hroot
    rw [htends.config]
    rcases Moment.mem_enter hroot with hroot | rfl
    · exact hs.joined hseat root hroot
    · obtain ⟨before, entry, hbefore, hjoin⟩ := h.joined
      cases hseat.symm.trans hbefore
      exact ⟨entry, hjoin⟩

theorem trail {moments : List Moment} (hs : s.Sound) (h : Trail moments s t) : t.Sound := by
  induction h with
  | nil _ => exact hs
  | cons hfirst _ ih => exact ih (hs.instant hfirst)

/-- With a connection and no task left everything has been sent. -/
theorem idle (hs : s.Sound) (hsome : s.client.isSome = true)
    (hconnected : s.wire.outbox.connected = true) (htasks : s.wire.agenda.tasks = []) :
    s.wire.outbox.messages = [] := by
  by_cases hmessages : s.wire.outbox.messages = []
  · exact hmessages
  · have hone := (hs.awake hsome).drains_eq_one hconnected hmessages
    rw [htasks] at hone
    cases hone

end Session.Sound

end ValueTree
