import Mathlib.Data.List.Induction
import ValueTree.Proofs.Cbor.Heads
import ValueTree.Proofs.Sync.Framing

/-!
# Frames there and back

Bytes come in and frames are asked for, in any order. Of a stream of frames the calls give a prefix,
and all of it once every byte is in. What the calls give of any bytes, framed again, is these bytes
without those that wait.
-/

namespace ValueTree

/-! ## Headers -/

namespace Cbor

theorem ofBigEndian_lt (bytes : List UInt8) : ofBigEndian bytes < 256 ^ bytes.length := by
  induction bytes using List.reverseRecOn with
  | nil => simp [ofBigEndian]
  | append_singleton bytes b ih =>
    have hb := b.toNat_lt
    rw [ofBigEndian_append_singleton, List.length_append, List.length_singleton, Nat.pow_succ]
    omega

theorem bigEndian_ofBigEndian (bytes : List UInt8) :
    bigEndian bytes.length (ofBigEndian bytes) = bytes := by
  induction bytes using List.reverseRecOn with
  | nil => rfl
  | append_singleton bytes b ih =>
    have hb := b.toNat_lt
    have hfront : (256 * ofBigEndian bytes + b.toNat) / 256 = ofBigEndian bytes := by omega
    have hlast : (256 * ofBigEndian bytes + b.toNat).toUInt8 = b := by
      apply UInt8.toNat_inj.mp
      simp
    rw [ofBigEndian_append_singleton, List.length_append, List.length_singleton, bigEndian, hfront,
      ih, hlast]

end Cbor

/-- A plain length that starts with the marker would be taken for a marked frame. -/
def Framing.Plain (f : Framing) (length : Nat) : Prop :=
  f = .plain → length / 256 ^ 3 ≠ Framing.marker.toNat

namespace Header

variable {f : Framing} {header : List UInt8} {length : Nat}

theorem of_plain (hlength : length < UInt32.size) (hplain : f.Plain length) :
    Header f (f.header length) length := by
  obtain ⟨a, b, c, d, hbytes⟩ : ∃ a b c d, Cbor.bigEndian 4 length = [a, b, c, d] :=
    ⟨_, _, _, _, rfl⟩
  have hnumber : Cbor.ofBigEndian [a, b, c, d] = length := by
    rw [← hbytes, Cbor.ofBigEndian_bigEndian hlength]
  have hb := b.toNat_lt
  have hc := c.toNat_lt
  have hd := d.toNat_lt
  cases f with
  | plain =>
    have ha : a ≠ Framing.marker := by
      rintro rfl
      apply hplain rfl
      rw [← hnumber, Cbor.ofBigEndian_four]
      omega
    have h := Header.plain (b := b) (c := c) (d := d) ha
    rwa [hnumber, ← hbytes] at h
  | marked =>
    have h := Header.marked a b c d
    rwa [hnumber, ← hbytes] at h

theorem eq_header (h : Header f header length) : header = f.header length := by
  cases h with
  | @plain a b c d ha => exact (Cbor.bigEndian_ofBigEndian [a, b, c, d]).symm
  | marked a b c d =>
    exact congrArg (Framing.marker :: ·) (Cbor.bigEndian_ofBigEndian [a, b, c, d]).symm

theorem length_lt (h : Header f header length) : length < UInt32.size := by
  have hsize : UInt32.size = 256 ^ 4 := rfl
  rw [hsize]
  cases h with
  | @plain a b c d ha => exact Cbor.ofBigEndian_lt [a, b, c, d]
  | marked a b c d => exact Cbor.ofBigEndian_lt [a, b, c, d]

end Header

/-! ## Streams of frames -/

/-- A content with the framing around it. -/
abbrev Frame := Framing × List UInt8

namespace Frame

/-- The frames one after the other. -/
def stream : List Frame → Except WireError (List UInt8)
  | [] => .ok []
  | (f, content) :: rest => do
    let frame ← f.frame? content
    let behind ← stream rest
    pure (frame ++ behind)

/-- A deframer with this limit can take the frame. -/
def Fits (limit : Nat) (frame : Frame) : Prop :=
  frame.2.length ≤ limit ∧ frame.1.Plain frame.2.length

theorem frame?_eq_ok {f : Framing} {content bytes : List UInt8} :
    f.frame? content = .ok bytes ↔ content.length < UInt32.size ∧ bytes = f.frame content := by
  unfold Framing.frame?
  split <;> simp [*, eq_comm]

theorem stream_cons {f : Framing} {content bytes : List UInt8} {rest : List Frame} :
    stream ((f, content) :: rest) = .ok bytes ↔ content.length < UInt32.size ∧
      ∃ behind, stream rest = .ok behind ∧
        bytes = f.header content.length ++ (content ++ behind) := by
  constructor
  · intro h
    cases hframe : f.frame? content with
    | error e => simp [stream, hframe, bind, Except.bind] at h
    | ok frame =>
      cases hrest : stream rest with
      | error e => simp [stream, hframe, hrest, bind, Except.bind] at h
      | ok behind =>
        obtain ⟨hlength, rfl⟩ := frame?_eq_ok.mp hframe
        obtain rfl : f.frame content ++ behind = bytes := by
          simpa [stream, hframe, hrest, bind, Except.bind, pure, Except.pure] using h
        exact ⟨hlength, behind, rfl, List.append_assoc ..⟩
  · rintro ⟨hlength, behind, hrest, rfl⟩
    have hframe : f.frame? content = .ok (f.frame content) := frame?_eq_ok.mpr ⟨hlength, rfl⟩
    simp [stream, hframe, hrest, bind, Except.bind, pure, Except.pure, Framing.frame]

theorem stream_isOk {frames : List Frame} :
    (∃ bytes, stream frames = .ok bytes) ↔ ∀ frame ∈ frames, frame.2.length < UInt32.size := by
  induction frames with
  | nil => simp [stream]
  | cons frame rest ih =>
    obtain ⟨f, content⟩ := frame
    rw [List.forall_mem_cons, ← ih]
    constructor
    · rintro ⟨_, hbytes⟩
      obtain ⟨hlength, behind, hrest, -⟩ := stream_cons.mp hbytes
      exact ⟨hlength, behind, hrest⟩
    · rintro ⟨hlength, behind, hrest⟩
      exact ⟨_, stream_cons.mpr ⟨hlength, behind, hrest, rfl⟩⟩

end Frame

/-! ## Calls -/

namespace Deframed

def frame? : Deframed → Option Frame
  | frame f content => some (f, content)
  | _ => none

def isOversized : Deframed → Bool
  | oversized .. => true
  | _ => false

end Deframed

/-- No look at the front failed. -/
def Sound (found : List Deframed) : Prop := ∀ look ∈ found, look.isOversized = false

/-- The frames that were found. -/
def framesIn (found : List Deframed) : List Frame := found.filterMap Deframed.frame?

namespace Deframer

inductive Call
  | feed (bytes : List UInt8)
  | next

/-- What the calls find, one after the other, and the deframer afterwards. -/
def run (d : Deframer) : List Call → List Deframed × Deframer
  | [] => ([], d)
  | .feed bytes :: rest => (d.feed bytes).run rest
  | .next :: rest =>
    let (look, e) := d.next
    let (found, last) := e.run rest
    (look :: found, last)

/-- The bytes that come in, in however many pieces. -/
def fed : List Call → List UInt8
  | [] => []
  | .feed bytes :: rest => bytes ++ fed rest
  | .next :: rest => fed rest

theorem fed_looks (count : Nat) : fed (List.replicate count .next) = [] := by
  induction count with
  | zero => rfl
  | succ count ih => exact ih

variable {d e : Deframer} {look : Deframed} {frames : List Frame} {calls : List Call}
  {later : List UInt8}

theorem run_feed {bytes : List UInt8} :
    d.run (.feed bytes :: calls) = (d.feed bytes).run calls := rfl

theorem run_next (h : d.next = (look, e)) :
    d.run (.next :: calls) = (look :: (e.run calls).1, (e.run calls).2) := by
  simp only [run, h]

/-! ## From frames to bytes and back -/

/-- A look at the front of a stream of frames finds the first of them, or the front of it. -/
theorem next_of_stream (hstream : Frame.stream frames = .ok (d.buffer ++ later))
    (hfits : ∀ frame ∈ frames, Frame.Fits d.limit frame) :
    (d.next = (.pending, d) ∧ (later = [] → frames = [])) ∨
      ∃ f content rest more, frames = (f, content) :: rest ∧
        d.next = (.frame f content, ⟨more, d.limit⟩) ∧ Frame.stream rest = .ok (more ++ later) := by
  obtain ⟨buffer, limit⟩ := d
  cases frames with
  | nil =>
    obtain ⟨rfl, -⟩ : buffer = [] ∧ later = [] := by simpa [Frame.stream] using hstream
    exact Or.inl ⟨rfl, fun _ => rfl⟩
  | cons frame rest =>
    obtain ⟨f, content⟩ := frame
    obtain ⟨hlength, behind, hrest, hbytes⟩ := Frame.stream_cons.mp hstream
    obtain ⟨hlimit, hplain⟩ := hfits _ List.mem_cons_self
    have hheader := Header.of_plain hlength hplain
    by_cases hshort : buffer.length < (f.header content.length).length + content.length
    · refine Or.inl ⟨(Splits.front_alone hheader hlimit hbytes hshort).pending, ?_⟩
      rintro rfl
      have := congrArg List.length hbytes
      simp only [List.length_append, List.length_nil] at this hshort
      omega
    · obtain ⟨more, rfl, hmore⟩ :
          ∃ more, buffer = f.header content.length ++ (content ++ more) ∧
            more ++ later = behind := by
        rw [← List.append_assoc] at hbytes
        obtain ⟨more, hmore⟩ := List.prefix_of_prefix_length_le ⟨behind, hbytes.symm⟩
          (List.prefix_append buffer later) (by rw [List.length_append]; omega)
        refine ⟨more, by rw [← hmore, List.append_assoc], ?_⟩
        rw [← hmore, List.append_assoc] at hbytes
        exact List.append_cancel_left hbytes
      exact Or.inr ⟨f, content, rest, more, rfl, next_frame hheader hlimit, hmore ▸ hrest⟩

/-- The calls find the first frames, and the stream of the others is what waits and what comes
later. -/
theorem run_of_stream (hstream : Frame.stream frames = .ok (d.buffer ++ (fed calls ++ later)))
    (hfits : ∀ frame ∈ frames, Frame.Fits d.limit frame) :
    Sound (d.run calls).1 ∧ (d.run calls).2.limit = d.limit ∧
      ∃ rest, frames = framesIn (d.run calls).1 ++ rest ∧
        Frame.stream rest = .ok ((d.run calls).2.buffer ++ later) := by
  induction calls generalizing d frames with
  | nil => exact ⟨nofun, rfl, frames, rfl, hstream⟩
  | cons call calls ih =>
    cases call with
    | feed bytes =>
      have hfed : d.buffer ++ (fed (.feed bytes :: calls) ++ later) =
          (d.feed bytes).buffer ++ (fed calls ++ later) := by simp [fed, feed]
      exact ih (d := d.feed bytes) (hfed ▸ hstream) hfits
    | next =>
      rcases next_of_stream hstream hfits with
        ⟨hnext, -⟩ | ⟨f, content, rest, more, rfl, hnext, hrest⟩
      · obtain ⟨hsound, hlimit, rest, hframes, hleft⟩ := ih hstream hfits
        rw [run_next hnext]
        exact ⟨List.forall_mem_cons.mpr ⟨rfl, hsound⟩, hlimit, rest, hframes, hleft⟩
      · have hmore : ∀ frame ∈ rest, Frame.Fits d.limit frame :=
          fun frame hframe => hfits frame (List.mem_cons_of_mem _ hframe)
        obtain ⟨hsound, hlimit, last, rfl, hleft⟩ := ih (d := ⟨more, d.limit⟩) hrest hmore
        rw [run_next hnext]
        exact ⟨List.forall_mem_cons.mpr ⟨rfl, hsound⟩, hlimit, last, rfl, hleft⟩

/-- Once all bytes are in, each look finds a frame until none is left. -/
theorem run_to_end (hstream : Frame.stream frames = .ok d.buffer)
    (hfits : ∀ frame ∈ frames, Frame.Fits d.limit frame) {count : Nat}
    (hcount : frames.length ≤ count) :
    framesIn (d.run (List.replicate count .next)).1 = frames ∧
      (d.run (List.replicate count .next)).2.buffer = [] := by
  induction count generalizing d frames with
  | zero =>
    obtain rfl : frames = [] := List.eq_nil_of_length_eq_zero (Nat.le_zero.mp hcount)
    exact ⟨rfl, (Except.ok.inj hstream).symm⟩
  | succ count ih =>
    rw [List.replicate_succ]
    have hwhole : Frame.stream frames = .ok (d.buffer ++ []) := by rwa [List.append_nil]
    rcases next_of_stream hwhole hfits with
      ⟨hnext, hnone⟩ | ⟨f, content, rest, more, rfl, hnext, hrest⟩
    · obtain rfl := hnone rfl
      rw [run_next hnext]
      exact ih hstream hfits (Nat.zero_le count)
    · have hmore : ∀ frame ∈ rest, Frame.Fits d.limit frame :=
        fun frame hframe => hfits frame (List.mem_cons_of_mem _ hframe)
      rw [List.append_nil] at hrest
      have hrest := ih (d := ⟨more, d.limit⟩) hrest hmore (Nat.le_of_succ_le_succ hcount)
      rw [run_next hnext]
      exact ⟨congrArg ((f, content) :: ·) hrest.1, hrest.2⟩

/-! ## From bytes to frames and back -/

/-- A look that does not fail finds a frame that stood at the front, or leaves all as it is. -/
theorem next_reframes (hnext : d.next = (look, e)) (h : look.isOversized = false) :
    look = .pending ∧ e = d ∨ ∃ f content, look = .frame f content ∧
      content.length < UInt32.size ∧
        d.buffer = f.header content.length ++ (content ++ e.buffer) := by
  obtain ⟨buffer, limit⟩ := d
  rcases Header.cut_or_complete buffer with
    ⟨f, more, length, hheader, hmore⟩ | ⟨f, header, length, behind, hheader, rfl⟩
  · rw [next_cutHeader hheader hmore] at hnext
    obtain ⟨rfl, rfl⟩ := Prod.mk.inj hnext
    exact Or.inl ⟨rfl, rfl⟩
  · rw [next_header hheader limit behind] at hnext
    split at hnext
    · obtain ⟨rfl, -⟩ := Prod.mk.inj hnext
      cases h
    · split at hnext
      · obtain ⟨rfl, rfl⟩ := Prod.mk.inj hnext
        exact Or.inl ⟨rfl, rfl⟩
      · rename_i hwhole
        obtain ⟨rfl, rfl⟩ := Prod.mk.inj hnext
        have hlength : (behind.take length).length = length :=
          List.length_take_of_le (Nat.not_lt.mp hwhole)
        refine Or.inr ⟨f, behind.take length, rfl, hlength.symm ▸ hheader.length_lt, ?_⟩
        rw [hlength, List.take_append_drop, hheader.eq_header]

/-- The frames that were found and the bytes that wait are what came in. -/
theorem run_reframes (h : Sound (d.run calls).1) :
    ∃ bytes, Frame.stream (framesIn (d.run calls).1) = .ok bytes ∧
      bytes ++ (d.run calls).2.buffer = d.buffer ++ fed calls := by
  induction calls generalizing d with
  | nil => exact ⟨[], rfl, by simp [run, fed]⟩
  | cons call calls ih =>
    cases call with
    | feed bytes =>
      rw [run_feed] at h ⊢
      obtain ⟨found, hfound, hbytes⟩ := ih h
      exact ⟨found, hfound, by simpa [feed, fed] using hbytes⟩
    | next =>
      obtain ⟨look, e, hnext⟩ : ∃ look e, d.next = (look, e) := ⟨_, _, rfl⟩
      rw [run_next hnext] at h ⊢
      obtain ⟨hlook, hrest⟩ := List.forall_mem_cons.mp h
      obtain ⟨found, hfound, hbytes⟩ := ih hrest
      rcases next_reframes hnext hlook with ⟨rfl, rfl⟩ | ⟨f, content, rfl, hlength, hbuffer⟩
      · exact ⟨found, hfound, hbytes⟩
      · refine ⟨_, Frame.stream_cons.mpr ⟨hlength, found, hfound, rfl⟩, ?_⟩
        calc f.header content.length ++ (content ++ found) ++ (e.run calls).2.buffer
            = f.header content.length ++ (content ++ (found ++ (e.run calls).2.buffer)) := by
              simp only [List.append_assoc]
          _ = f.header content.length ++ (content ++ (e.buffer ++ fed calls)) := by rw [hbytes]
          _ = d.buffer ++ fed calls := by rw [hbuffer]; simp only [List.append_assoc]

end Deframer

/-! ## Both ways -/

/-- What is true of every deframer with a limit, whatever it is asked. -/
structure FramesReturn (limit : Nat) : Prop where
  /-- Frames there are as long as the lengths can be written. -/
  framed {frames : List Frame} :
    (∃ stream, Frame.stream frames = .ok stream) ↔ ∀ frame ∈ frames, frame.2.length < UInt32.size
  /-- However far the stream is in, and wherever it was cut, the frames come back in their order. -/
  inOrder {frames : List Frame} {stream later : List UInt8} {calls : List Deframer.Call} :
    Frame.stream frames = .ok stream → (∀ frame ∈ frames, Frame.Fits limit frame) →
      Deframer.fed calls ++ later = stream →
        Sound (Deframer.run { limit } calls).1 ∧
          framesIn (Deframer.run { limit } calls).1 <+: frames
  /-- With all bytes in, asking often enough gives every frame and leaves nothing behind. -/
  all {frames : List Frame} {stream : List UInt8} {calls : List Deframer.Call} {count : Nat} :
    Frame.stream frames = .ok stream → (∀ frame ∈ frames, Frame.Fits limit frame) →
      Deframer.fed calls = stream → frames.length ≤ count →
        let sofar := Deframer.run { limit } calls
        let last := sofar.2.run (List.replicate count .next)
        Sound last.1 ∧ framesIn sofar.1 ++ framesIn last.1 = frames ∧ last.2.buffer = []
  /-- What was found of any bytes and what waits are these bytes. -/
  bytes {calls : List Deframer.Call} : Sound (Deframer.run { limit } calls).1 →
    ∃ stream, Frame.stream (framesIn (Deframer.run { limit } calls).1) = .ok stream ∧
      stream ++ (Deframer.run { limit } calls).2.buffer = Deframer.fed calls

theorem Deframer.framesReturn (limit : Nat) : FramesReturn limit where
  framed := Frame.stream_isOk
  inOrder {frames stream later calls} hstream hfits hfed := by
    subst hfed
    obtain ⟨hsound, -, rest, hframes, -⟩ := run_of_stream (d := { limit }) hstream hfits
    exact ⟨hsound, rest, hframes.symm⟩
  all {frames stream calls count} hstream hfits hfed hcount := by
    subst hfed
    have hwhole : Frame.stream frames = .ok ([] ++ (fed calls ++ [])) := by
      rwa [List.nil_append, List.append_nil]
    obtain ⟨-, hlimit, rest, hframes, hrest⟩ := run_of_stream (d := { limit }) hwhole hfits
    generalize Deframer.run { limit } calls = sofar at hlimit hframes hrest ⊢
    subst hframes
    have hleft : ∀ frame ∈ rest, Frame.Fits sofar.2.limit frame := fun frame hframe =>
      hlimit ▸ hfits frame (List.mem_append_right _ hframe)
    have hfew : rest.length ≤ count := by
      rw [List.length_append] at hcount
      omega
    have hend := run_to_end (by rwa [List.append_nil] at hrest) hleft hfew
    have hmore : Frame.stream rest =
        .ok (sofar.2.buffer ++ (fed (List.replicate count .next) ++ [])) := by
      rwa [fed_looks]
    exact ⟨(run_of_stream hmore hleft).1, congrArg (framesIn sofar.1 ++ ·) hend.1, hend.2⟩
  bytes hsound := run_reframes hsound

end ValueTree
