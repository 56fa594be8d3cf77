import ValueTree.CommandLine
import ValueTree.Proofs.Frame.RoundTrip
import ValueTree.Proofs.Message.Cbor
import ValueTree.Proofs.Session.Reading

/-!
# Reading values from the command line

The program asks for values and prints what has taken their places. So for each id it prints the
payload that the authority gave, except in the entries of other applications: there it prints a
value that says nothing.
-/

namespace ValueTree.CommandLine

/-! ## What a session shows -/

/-- What of a session the program depends on. -/
structure Scene where
  store : Store := {}
  client : Client Completion
  wire : Wire LinkEvent
  /-- Who is at work with the client. -/
  holders : Nat := 0
  answer : Option Bool := none

theorem answered?_append {s t : Session} {entries : List LogEntry}
    (h : t.log = s.log ++ entries) :
    answered? t = (answered? s).or (answered? { log := entries }) := by
  rw [answered?, h]
  exact List.findSome?_append

theorem answered?_events (events : List Event) :
    answered? { log := events.map LogEntry.event } = none := by
  simp [answered?, List.findSome?_eq_none_iff]

structure Shows (config : ClientConfig) (scene : Scene) (s : Session) : Prop where
  alone : s.Alone
  filter : s.filter = Client.initialFilter config
  store : s.store = scene.store
  client : ∃ listener, s.client = some
    { client := scene.client, listener, tenure := { holders := scene.holders } }
  wire : s.wire = scene.wire
  answer : answered? s = scene.answer

namespace Shows

variable {config : ClientConfig} {scene : Scene} {s t : Session} {α : Type}

theorem record (h : Shows config scene s) (deed : Deed Completion) :
    Shows config scene (s.record deed) :=
  ⟨h.alone, h.filter, h.store, h.client, h.wire, h.answer⟩

theorem onWire (h : Shows config scene s) (f : Wire LinkEvent → Wire LinkEvent) :
    Shows config { scene with wire := f scene.wire } { s with wire := f s.wire } :=
  ⟨h.alone, h.filter, h.store, h.client, congrArg f h.wire, h.answer⟩

theorem adjust (h : Shows config scene s) (f : Client Completion → Client Completion) :
    Shows config { scene with client := f scene.client } (s.adjustClient f) := by
  obtain ⟨listener, hclient⟩ := h.client
  exact ⟨h.alone, h.filter, h.store, ⟨listener, Course.client_adjustClient hclient f⟩, h.wire,
    h.answer⟩

theorem write (h : Shows config scene s) (entry : LogEntry) :
    Shows config { scene with answer := scene.answer.or (answered? { log := [entry] }) }
      (s.write entry) := by
  refine ⟨h.alone, h.filter, h.store, h.client, h.wire, ?_⟩
  rw [← h.answer]
  exact answered?_append rfl

theorem restocked {store : Store} (h : Shows config scene s) (hst : s.Restocked store t) :
    Shows config { scene with store } t := by
  obtain ⟨listener, hclient⟩ := h.client
  obtain ⟨events, hlog⟩ := hst.log
  refine ⟨hst.alone h.alone, hst.filter.trans h.filter, hst.store,
    ⟨listener, hst.client.trans hclient⟩, hst.wire.trans h.wire, ?_⟩
  rw [answered?_append hlog, answered?_events, Option.or_none, h.answer]

theorem tend (h : Shows config scene s) (f : Tenure → Tenure) (holders : Nat)
    (hf : f { holders := scene.holders } = { holders }) :
    Shows config { scene with holders } (s.tendClient f) := by
  obtain ⟨listener, hclient⟩ := h.client
  have htend : s.tendClient f =
      { s with client := some { client := scene.client, listener, tenure := { holders } } } := by
    unfold Session.tendClient
    rw [hclient]
    dsimp only
    rw [hf]
    rfl
  rw [htend]
  exact ⟨h.alone, h.filter, h.store, ⟨listener, rfl⟩, h.wire, h.answer⟩

/-- Somebody is at work with the client for the time of an act. -/
theorem holding {act : Run α} {carryOut : Callback → Session → Session} {after : Scene}
    (h : Shows config scene s)
    (hact : ∀ t, Shows config { scene with holders := scene.holders + 1 } t →
      Shows config { after with holders := after.holders + 1 } (act carryOut t).2) :
    Shows config after (Run.holdingClient act carryOut s).2 :=
  (hact _ (h.tend Tenure.hold _ rfl)).tend Tenure.letGo _ rfl

/-! ## Requests -/

variable {carryOut : Callback → Session → Session}

/-- A connection comes up, and nobody has asked for anything yet. -/
theorem startClient (config : ClientConfig) :
    Shows config
      { client := { (Client.new config : Client Completion) with
          connection := .connecting, started := true }
        wire := {
          agenda := { tasks := [.own .connected] }
          link := { connected := true, attempts := 1 }
          reconnector := { backoff := config.backoff }
          framing := config.framing } }
      (CommandLine.startClient config true) :=
  ⟨rfl, rfl, rfl, ⟨1, rfl⟩, rfl, rfl⟩

theorem requesting (h : Shows config scene s) (ids : List Id) (completion : Completion)
    (n : UInt32) :
    Shows config
      { scene with
        client := (scene.client.register completion).2
        wire := scene.wire.push (.multiGet n ids) }
      (s.requesting ids completion n) := by
  have hrecorded := ((h.adjust fun c => (c.register completion).2).record
    (.allocated n)).record (.registered n completion)
  exact hrecorded.onWire (·.push (.multiGet n ids))

theorem request (h : Shows config scene s) (ids : List Id) (completion : Completion) (fuel : Nat) :
    Shows config
      { scene with
        store := scene.store.expect ids
        client := (scene.client.register completion).2
        wire := scene.wire.push (.multiGet scene.client.nextSequence ids) }
      (Run.request (.multiGet ids) completion (Run.carryOut fuel) s).2 := by
  obtain ⟨listener, hclient⟩ := h.client
  have howned : s.owned? = some scene.client := by
    rw [Session.owned?, hclient]
    rfl
  unfold Run.request Run.withClient
  rw [get_bind]
  simp only [howned]
  refine h.holding fun t ht => ?_
  obtain ⟨listener, hclient⟩ := ht.client
  obtain ⟨u, hlaid, hrun⟩ := Run.multiGet_apply ht.alone hclient ids completion fuel
  rw [ht.store] at hlaid
  change Shows config _ ((Client.multiGet ids completion : Run UInt32) (Run.carryOut fuel) t).2
  rw [hrun]
  exact (ht.restocked hlaid).requesting ids completion _

/-! ## Jobs -/

theorem run_nil (h : Shows config scene s) (htasks : scene.wire.agenda.tasks = []) (fuel : Nat) :
    Shows config scene (Station.runUntilIdle Run.work fuel carryOut s).2 := by
  rw [Run.runUntilIdle_nil (by rw [h.wire, htasks])]
  exact h

/-- The job at the front is taken and done, then the others. -/
theorem run_cons {after last : Scene} {job : Job LinkEvent} {rest : List (Job LinkEvent)}
    {fuel : Nat} (h : Shows config scene s) (htasks : scene.wire.agenda.tasks = job :: rest)
    (hjob : ∀ t, Shows config { scene with wire := scene.wire.withTasks rest } t →
      Shows config after (Run.work job carryOut t).2)
    (hrest : ∀ t, Shows config after t →
      Shows config last (Station.runUntilIdle Run.work fuel carryOut t).2) :
    Shows config last (Station.runUntilIdle Run.work (fuel + 1) carryOut s).2 := by
  rw [Run.runUntilIdle_cons (by rw [h.wire, htasks])]
  exact hrest _ (hjob _ (h.onWire (·.withTasks rest)))

theorem drain (h : Shows config scene s) :
    Shows config { scene with wire := scene.wire.drain } (Run.work .drain carryOut s).2 := by
  obtain ⟨listener, hclient⟩ := h.client
  rw [Run.drain_apply, if_pos (by rw [hclient]; rfl)]
  exact h.onWire Wire.drain

theorem own {event : LinkEvent} {after : Scene} (h : Shows config scene s)
    (hact : ∀ t, Shows config { scene with holders := scene.holders + 1 } t →
      Shows config { after with holders := after.holders + 1 }
        ((Client.onLink event : Run Unit) carryOut t).2) :
    Shows config after (Run.work (.own event) carryOut s).2 := by
  obtain ⟨listener, hclient⟩ := h.client
  have hrun : (Run.work (.own event) carryOut s).2 =
      (Run.holdingClient (Client.onLink event : Run Unit) carryOut s).2 := by
    change ((if s.client.isSome then Run.holdingClient (Client.onLink event) else pure () :
      Run Unit) carryOut s).2 = _
    rw [if_pos (by rw [hclient]; rfl)]
  rw [hrun]
  exact h.holding hact

theorem connected (h : Shows config scene s) :
    Shows config
      { scene with
        client := { scene.client with connection := .connected }
        wire := scene.wire.connectionUp.setConnected true }
      (Run.work (.own .connected) carryOut s).2 := by
  refine h.own fun t ht => ?_
  exact ((ht.record .up).adjust fun c => { c with connection := .connected }).onWire
    fun w => w.connectionUp.setConnected true

/-- While a result that is waited for is handled its completion runs. -/
theorem completing (h : Shows config scene s) (n : UInt32) (completion : Completion) (ok : Bool) :
    Shows config
      { scene with
        client := (scene.client.take n).2
        holders := scene.holders + 1
        answer := scene.answer.or (some ok) }
      (s.completing n completion ok) := by
  have htold := ((h.write (.result n ok)).record (.answered n ok)).tend Tenure.hold
    (scene.holders + 1) rfl
  have hran := (htold.adjust fun c => (c.take n).2).record (.ran n completion ok)
  have hwritten := hran.write (.completed completion.tag ok)
  simp only [Option.or_none, answered?, List.findSome?_cons, List.findSome?_nil] at hwritten
  exact hwritten

/-- The values of an answer take their places, and the one who asked is told. -/
theorem received {ids : List Id} {tag : String} {bytes : List UInt8} {values : List Value}
    {deframer : Deframer} (h : Shows config scene s) (hstore : scene.store = Store.expect {} ids)
    (hlistening : scene.client.listening = true)
    (hpending : scene.client.pending.lookup 1 = some { tag })
    (hreceive : Client.takeIn scene.client.deframer bytes =
      ([.result 1 .success values], deframer)) (fuel : Nat) :
    Shows config
      { scene with
        store := (Store.expect {} ids).letInAll (Client.initialFilter config) values
        client := (({ scene.client with deframer } : Client Completion).take 1).2
        answer := scene.answer.or (some true) }
      (Run.work (.own (.received bytes)) (Run.carryOut fuel) s).2 := by
  refine h.own fun t ht => ?_
  have hclient : (scene.client.receive bytes) =
      ([.result 1 .success values], { scene.client with deframer }) := by
    rw [Client.receive, hreceive]
  obtain ⟨listener, hseat⟩ := ht.client
  let taken := (t.adjustClient fun c => (c.receive bytes).2).record
    (.received bytes [.result 1 .success values])
  have hrun : ((Client.onLink (.received bytes) : Run Unit) (Run.carryOut fuel) t).2 =
      ((Client.carryOut (.result 1 .success values) : Run Unit) (Run.carryOut fuel) taken).2 := by
    change ((Client.onReceived bytes : Run Unit) (Run.carryOut fuel) t).2 = _
    unfold Client.onReceived
    rw [Run.bind_client hseat, hclient]
    rfl
  have htaken : Shows config
      { scene with
        client := { scene.client with deframer }
        holders := scene.holders + 1 } taken := by
    have hadjusted := ht.adjust fun c => (c.receive bytes).2
    simp only [hclient] at hadjusted
    exact hadjusted.record _
  obtain ⟨listener, hclient⟩ := htaken.client
  have hwaits : Waits (Client.initialFilter config) ids { tag } taken :=
    ⟨htaken.alone, htaken.store.trans hstore, htaken.filter, _, hclient, hlistening, hpending⟩
  obtain ⟨placed, hplaced, hcarried⟩ := Run.carryOut_result hwaits values fuel
  have hcompleting := ((htaken.record _).restocked hplaced).completing 1 { tag } true
  have hran := hcompleting.restocked (Run.restocked_nothing fuel ("completion:" ++ tag) _)
  rw [hcompleting.store] at hran
  rw [hrun, hcarried]
  exact (hran.tend Tenure.letGo (scene.holders + 1) rfl).record _

end Shows

/-! ## A request and its answer -/

/-- The client is connected, and its request has gone out. -/
def asked (config : ClientConfig) (ids : List Id) : Scene where
  store := Store.expect {} ids
  client := (({ (Client.new config : Client Completion) with
    connection := .connected, started := true }).register { tag := "" }).2
  wire := {
    link := {
      connected := true
      attempts := 1
      sent := [(Message.multiGet 1 ids).framed config.framing] }
    outbox := { connected := true }
    reconnector := { backoff := config.backoff }
    framing := config.framing }

variable {config : ClientConfig} {ids : List Id} {values : List Value} {s : Session}

theorem shows_ask (config : ClientConfig) (hfits : (Message.multiGet 1 ids).Fits) :
    Shows config (asked config ids) (ask (.multiGet ids) (startClient config true)) := by
  -- The link takes the request because a frame can hold it.
  have hsent : Link.sendMessage { connected := true, attempts := 1 } config.framing
      (.multiGet 1 ids) = (asked config ids).wire.link := Link.sendMessage_of_fits _ _ hfits
  have hasked : asked config ids = { asked config ids with
      wire := { (asked config ids).wire with
        link := Link.sendMessage { connected := true, attempts := 1 } config.framing
          (.multiGet 1 ids) } } := by
    rw [hsent]
  rw [hasked]
  have hrequested := (Shows.startClient config).request ids { tag := "" } Run.depthLimit
  have hrun : ask (.multiGet ids) (startClient config true) =
      (Station.runUntilIdle Run.work Run.patience (Run.carryOut Run.depthLimit)
        (Run.request (.multiGet ids) { tag := "" } (Run.carryOut Run.depthLimit)
          (startClient config true)).2).2 := rfl
  have hpatience : Run.patience = 999997 + 1 + 1 + 1 := rfl
  rw [hrun, hpatience]
  refine hrequested.run_cons rfl (fun t ht => ht.connected) fun t ht => ?_
  refine ht.run_cons rfl (fun t ht => ht.drain) fun t ht => ?_
  refine ht.run_cons rfl (fun t ht => ht.drain) fun t ht => ?_
  exact ht.run_nil rfl _

/-! ### On the stream -/

/-- A message that can be read again, in a frame that is not too long for the default limit. -/
def Sendable (m : Message) : Prop :=
  m.Within UInt64.size ∧ m.encode.length ≤ ({} : Deframer).limit

namespace Sendable

variable {m : Message} {framing : Framing}

theorem fits (h : Sendable m) : m.Fits := by
  have hlength : m.encode.length ≤ 16777216 := h.2
  have hsize : UInt32.size = 4294967296 := rfl
  unfold Message.Fits
  omega

theorem header (h : Sendable m) :
    Header framing (framing.header m.encode.length) m.encode.length := by
  have hlength : m.encode.length ≤ 16777216 := h.2
  have hmarker : Framing.marker.toNat = 167 := rfl
  refine .of_plain h.fits fun _ => ?_
  rw [hmarker]
  omega

theorem decode? (h : Sendable m) : Message.decode? m.encode = some m := by
  rw [← Message.decode?_encode_append h.1 [], List.append_nil]

theorem takeIn (h : Sendable m) : Client.takeIn {} (m.framed framing) = ([m], {}) := by
  have hsplits : Splits ({} : Deframer).limit
      ([] ++ (framing.header m.encode.length ++ (m.encode ++ []))) [m.encode] [] :=
    .frame h.header h.2 (.nil _)
  have htaken := Client.takeIn_of_splits hsplits
  simp only [List.filterMap_cons, List.filterMap_nil, h.decode?, List.append_nil] at htaken
  exact htaken

/-- What was sent is what is found on the link. -/
theorem messagesOf (h : Sendable m) : Link.messagesOf {} [m.framed framing] = .ok [m] := by
  have hnext : (({} : Deframer).feed (m.framed framing)).next = (.frame framing m.encode, {}) := by
    have hframe : Deframer.next ⟨framing.header m.encode.length ++ (m.encode ++ []), _⟩ = _ :=
      Deframer.next_frame h.header h.2
    rw [List.append_nil] at hframe
    exact hframe
  have hmessage : (({} : Deframer).feed (m.framed framing)).nextMessage = (.ok (some m), {}) := by
    simp only [Deframer.nextMessage, hnext, h.decode?]
  have hrest (fuel : Nat) : Link.drainMessages fuel {} = .ok ([], {}) := by
    cases fuel <;> rfl
  simp only [Link.messagesOf, Link.drainMessages, hmessage, hrest, List.append_nil]

end Sendable

/-! ### There and back -/

/-- The answer has come, and the values have taken their places. -/
def answered (config : ClientConfig) (ids : List Id) (values : List Value) : Scene where
  store := (Store.expect {} ids).letInAll (Client.initialFilter config) values
  client := (({ (asked config ids).client with deframer := {} } : Client Completion).take 1).2
  wire := { (asked config ids).wire with link := { connected := true, attempts := 1 } }
  answer := some true

theorem takeSent_asked (h : Sendable (.multiGet 1 ids)) (hs : Shows config (asked config ids) s) :
    ∃ t, takeSent s = ([.multiGet 1 ids], t) ∧ Shows config
      { asked config ids with
        wire := { (asked config ids).wire with link := { connected := true, attempts := 1 } } } t := by
  refine ⟨_, ?_, hs.onWire fun w => { w with link := { w.link with sent := [] } }⟩
  rw [takeSent, hs.wire]
  simp only [asked, Link.takeMessages, h.messagesOf]
  rfl

theorem notify_apply {seat : ClientSeat} (hs : s.client = some seat) (event : LinkEvent)
    (carryOut : Callback → Session → Session) :
    ((Station.notify event : Run Unit) carryOut s).2 = { s with wire := s.wire.post event } := by
  cases s
  cases hs
  rfl

theorem shows_hear (hlimit : config.frameLimit = ({} : Deframer).limit) (framing : Framing)
    (h : Sendable (.result 1 .success values))
    (hs : Shows config
      { asked config ids with
        wire := { (asked config ids).wire with link := { connected := true, attempts := 1 } } } s) :
    Shows config (answered config ids values)
      (hear { messages := [.result 1 .success values], framing } s) := by
  let bytes := [Message.result 1 .success values].flatMap (·.framed framing)
  obtain ⟨listener, hclient⟩ := hs.client
  have hrun : hear { messages := [.result 1 .success values], framing } s =
      (Station.runUntilIdle Run.work Run.patience (Run.carryOut Run.depthLimit)
        { s with wire := s.wire.post (.received bytes) }).2 := by
    rw [← notify_apply hclient _ (Run.carryOut Run.depthLimit)]
    rfl
  have hpatience : Run.patience = 999999 + 1 := rfl
  have htaken : Client.takeIn { limit := config.frameLimit } bytes =
      ([.result 1 .success values], {}) := by
    have hbytes : bytes = (Message.result 1 .success values).framed framing := List.append_nil _
    rw [hlimit, hbytes]
    exact h.takeIn
  rw [hrun, hpatience]
  refine (hs.onWire (·.post (.received bytes))).run_cons rfl
    (fun t ht => ht.received rfl rfl rfl htaken _) fun t ht => ?_
  exact ht.run_nil rfl _

/-- One answer is enough if it ends the session. -/
theorem converse_first (isOver : Session → Bool) {answer : Answer} (rest : List Answer)
    {message : Message} {waiting : List Message} {t : Session}
    (hsent : takeSent s = (message :: waiting, t)) (hover : isOver (hear answer t) = true) :
    converse isOver (answer :: rest) [] s = ([message], hear answer t) := by
  simp only [converse, hsent, List.nil_append, hover, if_true]

theorem exchange_eq {authority : Authority} {timeout : Nat} {framing : Framing}
    {rest : List Answer} (hlimit : config.frameLimit = ({} : Deframer).limit)
    (hat : authority.isAt config.endpoint = true) (htimeout : timeout ≠ 0)
    (hanswers : authority.answers = { messages := [.result 1 .success values], framing } :: rest)
    (hrequest : Sendable (.multiGet 1 ids)) (hresult : Sendable (.result 1 .success values)) :
    ∃ s, exchange config (some authority) timeout (.multiGet ids) =
      (.ok true, [.multiGet 1 ids], s) ∧ Shows config (answered config ids values) s := by
  obtain ⟨t, hsent, ht⟩ := takeSent_asked hrequest (shows_ask config hrequest.fits)
  have hheard := shows_hear hlimit framing hresult ht
  have hover : (answered? (hear { messages := [.result 1 .success values], framing } t)).isSome =
      true := by
    rw [hheard.answer]
    rfl
  have hconverse := converse_first (fun s => (answered? s).isSome) rest hsent hover
  refine ⟨_, ?_, hheard⟩
  unfold exchange
  rw [Option.any_some, hat, if_neg htimeout, Option.map_some, Option.getD_some, hanswers]
  simp only [hconverse, hheard.answer]
  rfl

/-- The program prints what has taken the places of the ids. -/
theorem getValues_eq (config : ClientConfig) {authority : Authority} {timeout : Nat} {framing : Framing}
    {rest : List Answer} (hlimit : config.frameLimit = ({} : Deframer).limit)
    (hat : authority.isAt config.endpoint = true) (htimeout : timeout ≠ 0)
    (hanswers : authority.answers = { messages := [.result 1 .success values], framing } :: rest)
    (hrequest : Sendable (.multiGet 1 ids)) (hresult : Sendable (.result 1 .success values))
    (hroot : ∀ id ∈ ids, id.isRoot = false) (hvalues : Answers ids values) :
    getValues config (some authority) timeout ids = {
      output := String.join (ids.map fun id =>
        ((Client.initialFilter config).reading values id).toJson.write ++ "\n")
      received := [.multiGet 1 ids] } := by
  obtain ⟨s, hexchange, hs⟩ := exchange_eq hlimit hat htimeout hanswers hrequest hresult
  have hlines : CommandLine.values true s.store ids = String.join (ids.map fun id =>
      ((Client.initialFilter config).reading values id).toJson.write ++ "\n") := by
    unfold CommandLine.values
    refine congrArg String.join (List.map_congr_left fun id hid => ?_)
    have hget : s.store.get? id = some ((Client.initialFilter config).reading values id) := by
      rw [hs.store]
      exact Store.get?_letInAll_expect hroot hvalues hid
    simp only [hget, if_true]
  simp only [getValues, hexchange, hlines]

/-! ## Every reading -/

/-- The authority listens where the client looks for it, and first of all it sends these values. -/
structure Gives (authority : Authority) (endpoint : Endpoint) (values : List Value) : Prop where
  isAt : authority.isAt endpoint = true
  answers : ∃ framing rest, authority.answers =
    { messages := [.result 1 .success values], framing } :: rest

/-- What is true of the first values that a client reads. -/
structure ReadingsKept (config : ClientConfig) : Prop where
  /-- Who asks for values waits for them. -/
  asked (files : FileTree) (ids : List Id) (completion : Completion) (fuel : Nat) :
    Waits (Client.initialFilter config) ids completion
      ((Client.multiGet ids completion : Run UInt32) (Run.carryOut fuel)
        ((Session.fresh files).seatClient config)).2
  /-- Whatever has become of the connection by then, a success that has one proper value for each id
  runs the completion once the values are in their places. -/
  told {ids : List Id} {values : List Value} {completion : Completion} {s : Session}
    (fuel : Nat) : Waits (Client.initialFilter config) ids completion s →
      (∀ id ∈ ids, id.isRoot = false) → Answers ids values → ∃ u : Session,
        u.journal.getLast? = some (.ran 1 completion true) ∧
        (∀ id ∈ ids,
          u.store.get? id = some ((Client.initialFilter config).reading values id)) ∧
        ((Client.carryOut (.result 1 .success values) : Run Unit) (Run.carryOut fuel) s).2 =
          ((Run.carryOut fuel
            (.react ("completion:" ++ completion.tag) completion.reaction completion.limit)
            u).tendClient Tenure.letGo).record (.ended (.result 1 .success values))
  /-- The program prints what is in the places. -/
  printed {authority : Authority} {timeout : Nat} {texts : List String} {ids : List Id}
    {values : List Value} (read : String → Except FileFault String) :
    Gives authority config.endpoint values → timeout ≠ 0 →
      texts.mapM parseId = .ok ids → (∀ id ∈ ids, id.isRoot = false) → Answers ids values →
        Sendable (.multiGet 1 ids) → Sendable (.result 1 .success values) →
          carryOut read (some authority)
              { app := config.app, endpoint := config.endpoint, task := .get timeout texts } = {
            output := String.join (ids.map fun id =>
              ((Client.initialFilter { app := config.app }).reading values id).toJson.write ++
                "\n")
            received := [.multiGet 1 ids] }

/-- A success brings each value to its place, unless it is in the entry of another application.
Distinct ids are taken to have distinct tokens. -/
theorem readingsKept (config : ClientConfig) : ReadingsKept config where
  asked files ids completion fuel := Run.waits_multiGet files config ids completion fuel
  told {ids values completion s} fuel hwaits hroot hvalues := by
    obtain ⟨t, hplaced, hrun⟩ := Run.carryOut_result hwaits values fuel
    refine ⟨t.completing 1 completion true, t.journal_completing .., fun id hid => ?_, hrun⟩
    rw [t.store_completing, hplaced.store]
    exact Store.get?_letInAll_expect hroot hvalues hid
  printed {authority timeout texts ids values} read hgives htimeout htexts hroot hvalues hrequest
      hresult := by
    obtain ⟨framing, rest, hanswers⟩ := hgives.answers
    have hprinted := getValues_eq { app := config.app, endpoint := config.endpoint } rfl
      hgives.isAt htimeout hanswers hrequest hresult hroot hvalues
    simp only [carryOut, htexts]
    exact hprinted

/-- What another application has below a shared root is not let in, although the request is a
success: its place stays empty. -/
theorem reading_hidden :
    let id : Id := ⟨["logger", "B", "level"]⟩
    let values : List Value := [⟨id, .readWrite, .text "debug"⟩]
    let s := (((Session.fresh {}).seatClient { app := "svc" }).steps
      [.request (.multiGet [id]) "" [] 0, .client .start, .wire .run,
        .wire (.inject ((Message.result 1 .success values).framed .marked) none true)]).2
    id.isRoot = false ∧ Answers [id] values ∧
      s.journal.any (fun | .ran 1 _ true => true | _ => false) = true ∧
        s.store.get? id = some ⟨id, .readWrite, .unset⟩ := by
  intro id values s
  have hanswers : Answers [id] values := by
    intro x hx
    obtain rfl := List.mem_singleton.mp hx
    exact ⟨_, rfl, rfl⟩
  exact ⟨rfl, hanswers, by decide +kernel, by decide +kernel⟩

end ValueTree.CommandLine
