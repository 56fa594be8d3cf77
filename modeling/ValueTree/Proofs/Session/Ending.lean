import ValueTree.Proofs.Session.Orderly

/-!
# Coming to an end

A computation comes to an end if its callbacks nest only so deep, wherever the limit is set. This is
worked out for sessions with one loader, in which nobody else acts when something changes: a
computation is described by what is true of the store before it and after it, and if the loader comes
to an end whenever it hears of an order, then so does the change that gave the order.
-/

namespace ValueTree

variable {α β ε : Type}

namespace Run

/-- Where enough may nest the computation comes to one end, and `Q` is true of it. -/
def Ends (x : Run α) (s : Session) (Q : α → Session → Prop) : Prop :=
  ∃ a t, Q a t ∧ ∃ depth, ∀ n ≥ depth, x (carryOut n) s = (a, t)

/-- No room is enough for the computation, wherever the limit is set. -/
def Overruns (x : Run α) (s : Session) : Prop := ∀ n, (x (carryOut n) s).2.overrun = true

variable {s : Session} {x : Run α} {f : α → Run β} {Q Q' : α → Session → Prop}
  {R : β → Session → Prop}

theorem ends_pure {a : α} (h : Q a s) : Ends (pure a : Run α) s Q := ⟨a, s, h, 0, fun _ _ => rfl⟩

theorem Ends.mono (h : Ends x s Q) (hQ : ∀ a t, Q a t → Q' a t) : Ends x s Q' := by
  obtain ⟨a, t, hq, hdepth⟩ := h
  exact ⟨a, t, hQ a t hq, hdepth⟩

theorem Ends.bind (h : Ends x s Q) (hf : ∀ a t, Q a t → Ends (f a) t R) :
    Ends (x >>= f) s R := by
  obtain ⟨a, t, hq, d, hd⟩ := h
  obtain ⟨b, u, hr, e, he⟩ := hf a t hq
  refine ⟨b, u, hr, max d e, fun n hn => ?_⟩
  rw [bind_apply, hd n (Nat.le_trans (Nat.le_max_left d e) hn)]
  exact he n (Nat.le_trans (Nat.le_max_right d e) hn)

theorem ends_get {f : Session → Run β} (h : Ends (f s) s R) : Ends (get >>= f) s R := h

theorem ends_modify {g : Session → Session} {f : PUnit → Run β} (h : Ends (f ()) (g s) R) :
    Ends (modify g >>= f) s R := h

/-- A callback takes one level. -/
theorem ends_call {callback : Callback} {Q : Unit → Session → Prop}
    (h : Ends (perform callback) s Q) : Ends (call callback) s Q := by
  obtain ⟨u, t, hq, d, hd⟩ := h
  refine ⟨(), t, hq, d + 1, fun n hn => ?_⟩
  obtain ⟨m, rfl⟩ := Nat.exists_eq_add_of_le' (Nat.one_le_of_lt hn)
  exact congrArg (fun out => ((), out.2)) (hd m (Nat.le_of_succ_le_succ hn))

end Run

/-! ## One loader -/

/-- A listener that writes down what it hears and does no more. -/
def Listener.Silent : Listener → Prop
  | .observer o => o.limit = 0
  | .client | .loader _ => False

/-- A loader with the files that it works on. -/
structure Duty where
  serial : Nat
  loader : Loader
  files : FileTree

namespace Duty

/-- The loader is attached, and nobody else acts when something changes. -/
structure Sole (d : Duty) (s : Session) : Prop where
  listeners : ∃ before after, s.listeners.snapshot = before ++ .loader d.serial :: after ∧
    (∀ l ∈ before, l.Silent) ∧ ∀ l ∈ after, l.Silent
  seat : ∃ listener holders, s.loaders = [⟨d.serial, d.loader, listener, ⟨holders, false⟩⟩]
  files : s.files = d.files
  indexed : s.store.Indexed

/-- The loader is the only one who acts, and there was room for everything so far. -/
structure Ready (d : Duty) (s : Session) : Prop extends d.Sole s where
  room : s.overrun = false

variable {d : Duty} {s t : Session}

namespace Sole

theorem of_same (h : d.Sole s) (hlisteners : t.listeners = s.listeners)
    (hloaders : t.loaders = s.loaders) (hfiles : t.files = s.files) (hindexed : t.store.Indexed) :
    d.Sole t where
  listeners := hlisteners ▸ h.listeners
  seat := hloaders ▸ h.seat
  files := hfiles.trans h.files
  indexed := hindexed

theorem mark (h : d.Sole s) (mark : Mark) : d.Sole (s.mark mark) :=
  h.of_same rfl rfl rfl h.indexed

theorem write (h : d.Sole s) (entry : LogEntry) : d.Sole (s.write entry) :=
  h.of_same rfl rfl rfl h.indexed

/-- The store is another one after a change, with the change in the history. -/
theorem made (h : d.Sole s) {store : Store} {events : List Event} (ht : s.store.Turn store events) :
    d.Sole { s.mark (.made events) with store } :=
  h.of_same rfl rfl rfl (h.indexed.turn ht)

theorem loader? (h : d.Sole s) : s.loader? d.serial = some d.loader := by
  obtain ⟨listener, holders, hseat⟩ := h.seat
  simp [Session.loader?, hseat]

theorem attached? (h : d.Sole s) :
    ∃ seat, s.attached? = some seat ∧ seat.serial = d.serial ∧ seat.loader = d.loader := by
  obtain ⟨listener, holders, hseat⟩ := h.seat
  exact ⟨⟨d.serial, d.loader, listener, ⟨holders, false⟩⟩, by simp [Session.attached?, hseat],
    rfl, rfl⟩

/-- A loader that is not released stays where it is, whoever holds it. -/
theorem tendLoader (h : d.Sole s) {f : Tenure → Tenure}
    (hf : ∀ holders, (f ⟨holders, false⟩).released = false) :
    d.Sole (s.tendLoader d.serial f) := by
  obtain ⟨listener, holders, hseat⟩ := h.seat
  have hover : (f ⟨holders, false⟩).isOver = false := by simp [Tenure.isOver, hf]
  constructor
  case listeners =>
    simpa [Session.tendLoader, hseat, hover] using h.listeners
  case seat =>
    refine ⟨listener, (f ⟨holders, false⟩).holders, ?_⟩
    have hkept : f ⟨holders, false⟩ = ⟨(f ⟨holders, false⟩).holders, false⟩ :=
      congrArg (Tenure.mk _) (hf holders)
    simp only [Session.tendLoader, hseat, List.map_cons, List.map_nil, if_true, List.filter_cons,
      hover, Bool.not_false, List.filter_nil]
    rw [← hkept]
  case files =>
    exact h.files
  case indexed =>
    exact h.indexed

end Sole

namespace Ready

theorem hold (h : d.Ready s) : d.Ready (s.tendLoader d.serial Tenure.hold) :=
  ⟨h.toSole.tendLoader fun _ => rfl, h.room⟩

theorem letGo (h : d.Ready s) : d.Ready (s.tendLoader d.serial Tenure.letGo) :=
  ⟨h.toSole.tendLoader fun _ => rfl, h.room⟩

theorem mark (h : d.Ready s) (mark : Mark) : d.Ready (s.mark mark) :=
  ⟨h.toSole.mark mark, h.room⟩

theorem write (h : d.Ready s) (entry : LogEntry) : d.Ready (s.write entry) :=
  ⟨h.toSole.write entry, h.room⟩

end Ready

/-! ## Before and after -/

/-- From a store of which `P` is true the computation comes to an end, with an answer and a store of
which `Q` is true. -/
def Brings (d : Duty) (P : Store → Prop) (x : Run α) (Q : α → Store → Prop) : Prop :=
  ∀ s, d.Ready s → P s.store → x.Ends s fun a t => d.Ready t ∧ Q a t.store

variable {P P' : Store → Prop} {x : Run α} {f : α → Run β} {Q Q' : α → Store → Prop}
  {R : β → Store → Prop}

theorem brings_pure {a : α} (h : ∀ s, P s → Q a s) : d.Brings P (pure a : Run α) Q :=
  fun s hs hp => Run.ends_pure ⟨hs, h s.store hp⟩

theorem brings_get {f : Session → Run β} (h : ∀ s, d.Ready s → d.Brings P (f s) R) :
    d.Brings P (get >>= f) R :=
  fun s hs hp => Run.ends_get (h s hs s hs hp)

theorem brings_store {f : Store → Run β} (h : ∀ s, P s → d.Brings (· = s) (f s) R) :
    d.Brings P ((Host.store : Run Store) >>= f) R :=
  fun s hs hp => Run.ends_get (h s.store hp s hs rfl)

theorem Brings.bind (h : d.Brings P x Q) (hf : ∀ a, d.Brings (Q a) (f a) R) :
    d.Brings P (x >>= f) R :=
  fun s hs hp => (h s hs hp).bind fun a _ ⟨ht, hq⟩ => hf a _ ht hq

theorem Brings.conseq (h : d.Brings P x Q) (hP : ∀ s, P' s → P s) (hQ : ∀ a s, Q a s → Q' a s) :
    d.Brings P' x Q' :=
  fun s hs hp => (h s hs (hP _ hp)).mono fun a _ ⟨ht, hq⟩ => ⟨ht, hQ a _ hq⟩

theorem Brings.pre (h : d.Brings P x Q) (hP : ∀ s, P' s → P s) : d.Brings P' x Q :=
  h.conseq hP fun _ _ => id

theorem Brings.post (h : d.Brings P x Q) (hQ : ∀ a s, Q a s → Q' a s) : d.Brings P x Q' :=
  h.conseq (fun _ => id) hQ

/-- Once the store is looked at, what is true of it is true of the one that is there. -/
theorem Brings.here {s : Store} (h : d.Brings P x Q) (hs : P s) : d.Brings (· = s) x Q :=
  h.pre fun _ ht => ht ▸ hs

theorem brings_pure_here {s : Store} {a : α} (h : Q a s) :
    d.Brings (· = s) (pure a : Run α) Q :=
  brings_pure fun _ ht => ht ▸ h

theorem brings_forM {γ : Type} {xs : List γ} {f : γ → Run PUnit}
    (h : ∀ c ∈ xs, d.Brings P (f c) fun _ => P) : d.Brings P (xs.forM f) fun _ => P := by
  induction xs with
  | nil => exact brings_pure fun _ => id
  | cons c rest ih =>
    exact (h c List.mem_cons_self).bind fun _ => ih fun c hc => h c (List.mem_cons_of_mem _ hc)

/-! ## With errors -/

theorem Brings.bind_except {x : ExceptT ε Run α} {f : α → ExceptT ε Run β}
    {Q : Except ε α → Store → Prop} {R : Except ε β → Store → Prop} (h : d.Brings P x.run Q)
    (hf : ∀ a, d.Brings (Q (.ok a)) (f a).run R) (he : ∀ e s, Q (.error e) s → R (.error e) s) :
    d.Brings P (x >>= f).run R := by
  rw [ExceptT.run_bind]
  refine h.bind fun result => ?_
  cases result with
  | ok a => exact hf a
  | error e => exact brings_pure (he e)

section

variable {x : ExceptT ε Run α} {f : α → ExceptT ε Run β}

theorem brings_lift_store {f : Store → ExceptT ε Run β} {R : Except ε β → Store → Prop}
    (h : ∀ s, P s → d.Brings (· = s) (f s).run R) :
    d.Brings P ((liftM (Host.store : Run Store) : ExceptT ε Run Store) >>= f).run R :=
  fun s hs hp => h s.store hp s hs rfl

theorem brings_lift_except {result : Except ε α} {R : Except ε β → Store → Prop}
    (h : ∀ a, result = .ok a → d.Brings P (f a).run R)
    (he : ∀ e s, result = .error e → P s → R (.error e) s) :
    d.Brings P ((liftM result : ExceptT ε Run α) >>= f).run R := by
  cases result with
  | ok a => exact h a rfl
  | error e => exact fun s hs hp => Run.ends_pure ⟨hs, he e s.store rfl hp⟩

theorem keeps_bind (h : d.Brings P x.run fun _ => P) (hf : ∀ a, d.Brings P (f a).run fun _ => P) :
    d.Brings P (x >>= f).run fun _ => P :=
  h.bind_except hf fun _ _ hp => hp

theorem keeps_discard (h : d.Brings P x.run fun _ => P) :
    d.Brings P (x >>= fun _ => pure () : ExceptT ε Run Unit).run fun _ => P :=
  keeps_bind h fun _ => brings_pure fun _ hp => hp

theorem keeps_lift {x : Run α} (h : d.Brings P x fun _ => P) :
    d.Brings P (liftM x : ExceptT ε Run α).run fun _ => P :=
  h.bind fun _ => brings_pure fun _ hp => hp

theorem keeps_forM {γ : Type} {xs : List γ} {f : γ → ExceptT ε Run PUnit}
    (h : ∀ c ∈ xs, d.Brings P (f c).run fun _ => P) : d.Brings P (xs.forM f).run fun _ => P := by
  induction xs with
  | nil => exact brings_pure fun _ hp => hp
  | cons c rest ih =>
    exact keeps_bind (h c List.mem_cons_self) fun _ => ih fun c hc => h c (List.mem_cons_of_mem _ hc)

end

/-! ## Who hears of a change -/

theorem brings_silent {listener : Listener} (h : listener.Silent) (event : Event) :
    d.Brings P (Run.hear event listener) fun _ => P := by
  intro s hs hp
  cases listener with
  | observer o =>
    have hlimit : o.limit = 0 := h
    refine Run.ends_modify ?_
    simp only [Run.observed]
    split
    · refine Run.ends_modify (Run.ends_call ?_)
      simp only [Run.perform, Run.react, hlimit, Nat.not_lt_zero, if_false]
      exact Run.ends_get (Run.ends_pure ⟨(hs.mark _).write _, hp⟩)
    · exact Run.ends_pure ⟨hs.mark _, hp⟩
  | client => exact h.elim
  | loader serial => exact h.elim

/-- The loader hears of an event between two rows of others, and acts if it is an order. -/
theorem brings_deliver {P Q : Store → Prop} {event : Event}
    (horder : d.loader.isOrder event = true →
      d.Brings P (Run.call (.trigger d.serial)) fun _ => Q)
    (hother : d.loader.isOrder event = false → ∀ s, P s → Q s) :
    d.Brings P (Run.deliver event) fun _ => Q := by
  have hloader : d.Brings P (Run.hear event (.loader d.serial)) fun _ => Q := by
    intro s hs hp
    refine Run.ends_modify (Run.ends_get ?_)
    simp only [(hs.mark _).loader?]
    split
    · exact horder ‹_› _ (hs.mark _) hp
    · exact Run.ends_pure ⟨hs.mark _, hother (Bool.eq_false_iff.mpr ‹_›) _ hp⟩
  intro s hs hp
  obtain ⟨before, after, hsnapshot, hbefore, hafter⟩ := hs.listeners
  refine Run.ends_get ?_
  rw [hsnapshot, List.forM_eq_forM, List.forM_append]
  have hrest : d.Brings P ((.loader d.serial :: after).forM (Run.hear event)) fun _ => Q :=
    hloader.bind fun _ => brings_forM fun l hl => brings_silent (hafter l hl) event
  exact ((brings_forM fun l hl => brings_silent (hbefore l hl) event).bind fun _ => hrest) s hs hp

theorem brings_held (h : d.Brings P x Q) : d.Brings P (Run.holdingLoader d.serial x) Q := by
  intro s hs hp
  refine Run.ends_modify ((h _ hs.hold hp).bind fun a t ⟨ht, hq⟩ => ?_)
  exact Run.ends_modify (Run.ends_pure ⟨ht.letGo, hq⟩)

theorem brings_call (h : d.Brings P (d.loader.trigger d.files : Run LoadStatus) fun _ => P') :
    d.Brings P (Run.call (.trigger d.serial)) fun _ => P' := by
  have hheld : d.Brings P (Run.holdingLoader d.serial do
      let _ ← (d.loader.trigger (← get).files : Run LoadStatus)) fun _ => P' := by
    refine brings_held fun s hs hp => Run.ends_get ?_
    rw [hs.files]
    exact (h s hs hp).bind fun _ t ht => Run.ends_pure ht
  intro s hs hp
  refine Run.ends_call (Run.ends_get ?_)
  simp only [hs.loader?]
  exact hheld s hs hp

/-! ## Changes -/

/-- A change comes to an end if telling of it does. -/
theorem brings_change {step : Store → Outcome α} {Q : Except StoreError α → Store → Prop}
    (ht : ∀ s : Store, s.Turn (step s).store (step s).events)
    (h : ∀ s : Store, s.Indexed → P s → d.Brings (· = (step s).store)
      ((step s).events.forM Run.deliver) fun _ => Q (step s).result) :
    d.Brings P (Host.change step : Run (Except StoreError α)) Q := by
  intro s hs hp
  refine Run.ends_get (Run.ends_modify ?_)
  exact (h s.store hs.indexed hp _ ⟨hs.toSole.made (ht _), hs.room⟩ rfl).bind
    fun _ t ht => Run.ends_pure ht

/-- A change comes to an end at once if no event of it is an order. -/
theorem brings_unordered {events : List Event}
    (h : ∀ event ∈ events, d.loader.isOrder event = false) :
    d.Brings P (events.forM Run.deliver) fun _ => P :=
  brings_forM fun event hmem =>
    brings_deliver (fun horder => absurd (horder.symm.trans (h event hmem)) nofun) fun _ _ => id

theorem brings_order {P Q : Store → Prop} {event : Event}
    (h : d.Brings P (Run.call (.trigger d.serial)) fun _ => Q)
    (horder : d.loader.isOrder event = true) :
    d.Brings P ([event].forM Run.deliver) fun _ => Q := by
  refine (brings_deliver (fun _ => h) fun hother => ?_).bind fun _ => brings_pure fun _ => id
  exact absurd (horder.symm.trans hother) nofun

end Duty

end ValueTree
