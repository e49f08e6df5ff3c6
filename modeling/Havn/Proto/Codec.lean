import Havn.Lib.Delimited

/-!
# The frame codec of the agent socket

`havn-proto/src/codec.rs` puts one JSON document per line on the agent's socket.  Each turn of the
reader's loop copies one non-empty chunk, whole or up to the newline, and checks a running byte
count in both branches before it copies.  `Serde.Lawful` is what the codec relies on.
-/

namespace Havn.Proto.Codec

open Lib List

def maxFrameBytes : ℕ := 4 * 1024 * 1024

def newline : UInt8 := 10

inductive IoErrorKind where
  | unexpectedEof
  | connectionReset
  | brokenPipe
  | other
  deriving DecidableEq

structure IoError where
  kind : IoErrorKind
  message : String
  deriving DecidableEq

inductive FrameError where
  | io (error : IoError)
  | json (message : String)
  | frameTooLarge (bytes : ℕ)
  deriving DecidableEq

structure Serde (T : Type) where
  toVec : T → Except String (List UInt8)
  fromSlice : List UInt8 → Except String T

structure Serde.Lawful {T : Type} (serde : Serde T) : Prop where
  noNewline : ∀ frame bytes, serde.toVec frame = .ok bytes → newline ∉ bytes
  roundTrip : ∀ frame bytes, serde.toVec frame = .ok bytes → serde.fromSlice bytes = .ok frame

/-- The chunks `fill_buf` will deliver, and how the stream then ends. -/
structure Reader where
  chunks : List (Chunk UInt8)
  fault : Option IoError := none

structure Writer where
  sent : List UInt8 := []
  fault : Option IoError := none

/-! ## The code -/

/-- The loop of `read_frame`.  It answers the bytes of the line and the chunks that are not
consumed; a size check leaves the offending chunk. -/
def readLoop (fault : Option IoError) (buf : List UInt8) (total : ℕ) :
    List (Chunk UInt8) → Except FrameError (Option (List UInt8)) × List (Chunk UInt8)
  | [] =>
    match fault with
    | some error => (.error (.io error), [])
    | none =>
      if buf.isEmpty then (.ok none, [])
      -- trailing data without a terminator
      else (.error (.io ⟨.unexpectedEof, "frame missing trailing newline"⟩), [])
  | chunk :: rest =>
    match chunk.items.findIdx? (· == newline) with
    | some take =>
      if total + take > maxFrameBytes then
        (.error (.frameTooLarge (total + take)), chunk :: rest)
      else (.ok (some (buf ++ chunk.items.take take)), consume (take + 1) (chunk :: rest))
    | none =>
      if total + chunk.items.length > maxFrameBytes then
        (.error (.frameTooLarge (total + chunk.items.length)), chunk :: rest)
      else readLoop fault (buf ++ chunk.items) (total + chunk.items.length) rest

section Frames

variable {T : Type} (serde : Serde T)

def readFrame (reader : Reader) : Except FrameError (Option T) × Reader :=
  match readLoop reader.fault [] 0 reader.chunks with
  | (.error error, chunks) => (.error error, { reader with chunks })
  | (.ok none, chunks) => (.ok none, { reader with chunks })
  | (.ok (some buf), chunks) =>
    match serde.fromSlice buf with
    | .error message => (.error (.json message), { reader with chunks })
    | .ok parsed => (.ok (some parsed), { reader with chunks })

def writeFrame (writer : Writer) (frame : T) : Except FrameError Writer :=
  match serde.toVec frame with
  | .error message => .error (.json message)
  | .ok buf =>
    if buf.length > maxFrameBytes then .error (.frameTooLarge buf.length)
    else
      match writer.fault with
      | some error => .error (.io error)
      | none => .ok { writer with sent := writer.sent ++ (buf ++ [newline]) }

def writeFrames : Writer → List T → Except FrameError Writer
  | writer, [] => .ok writer
  | writer, frame :: frames =>
    match writeFrame serde writer frame with
    | .error error => .error error
    | .ok writer' => writeFrames writer' frames

/-! ## What a read is for, on flat bytes -/

/-- Error kinds, without what depends on where the transport cut the stream. -/
inductive ErrorKind where
  | io (kind : IoErrorKind)
  | json
  | frameTooLarge
  deriving DecidableEq

def FrameError.errorKind : FrameError → ErrorKind
  | .io error => .io error.kind
  | .json _ => .json
  | .frameTooLarge _ => .frameTooLarge

inductive StreamRead (T : Type) where
  | frame (frame : T) (rest : List UInt8)
  | ended
  | failed (kind : ErrorKind)

def endKind : Option IoError → ErrorKind
  | some error => .io error.kind
  | none => .io .unexpectedEof

def streamLine (fault : Option IoError) (bytes : List UInt8) : StreamRead (List UInt8) :=
  match scan maxFrameBytes newline bytes with
  | .tooLong => .failed .frameTooLarge
  | .ended => if fault.isSome then .failed (endKind fault) else .ended
  | .unterminated => .failed (endKind fault)
  | .found line rest => .frame line rest

def StreamRead.decode : StreamRead (List UInt8) → StreamRead T
  | .frame line rest =>
    match serde.fromSlice line with
    | .error _ => .failed .json
    | .ok parsed => .frame parsed rest
  | .ended => .ended
  | .failed kind => .failed kind

/-- **What `read_frame` is for**: the bytes before the first newline, decoded. -/
def streamRead (fault : Option IoError) (bytes : List UInt8) : StreamRead T :=
  (streamLine fault bytes).decode serde

def observe : Except FrameError (Option T) → List (Chunk UInt8) → StreamRead T
  | .ok (some frame), chunks => .frame frame (flat chunks)
  | .ok none, _ => .ended
  | .error error, _ => .failed error.errorKind

end Frames

/-! ## The loop reads lines -/

/-- **The chunk loop computes the line of the flat bytes.**  The buffer holds no newline and no more
than the limit. -/
theorem observe_readLoop (fault : Option IoError) (chunks : List (Chunk UInt8)) :
    ∀ buf : List UInt8, newline ∉ buf → buf.length ≤ maxFrameBytes →
      observe (readLoop fault buf buf.length chunks).1 (readLoop fault buf buf.length chunks).2 =
        streamLine fault (buf ++ flat chunks) := by
  induction chunks with
  | nil =>
    intro buf free within
    rw [flat_nil, append_nil, streamLine, scan_free free within]
    cases fault with
    | some | none =>
      by_cases empty : buf = [] <;>
        simp [readLoop, observe, empty, endKind, FrameError.errorKind]
  | cons chunk rest ih =>
    intro buf free within
    rw [flat_cons]
    cases found : chunk.items.findIdx? (· == newline) with
    | some take =>
      obtain ⟨parts, freeTake, lengthTake⟩ := split_of_findIdx? found
      have freeLine : newline ∉ buf ++ chunk.items.take take := by
        simp [free, freeTake]
      have bytes : buf ++ (chunk.items ++ flat rest) =
          (buf ++ chunk.items.take take) ++
            newline :: (chunk.items.drop (take + 1) ++ flat rest) := by
        conv => lhs; rw [parts]
        simp only [append_assoc, cons_append]
      have length : (buf ++ chunk.items.take take).length = buf.length + take := by
        rw [length_append, lengthTake]
      rw [bytes, streamLine, scan_delimited freeLine, length]
      by_cases tooLong : maxFrameBytes < buf.length + take
      · simp [readLoop, found, tooLong, observe, FrameError.errorKind]
      · simp [readLoop, found, tooLong, observe, flat_consume_cons]
    | none =>
      have freeAll : newline ∉ buf ++ chunk.items := by
        simp [free, free_of_findIdx?_eq_none found]
      rw [← append_assoc]
      by_cases tooLong : maxFrameBytes < buf.length + chunk.items.length
      · have long : maxFrameBytes < (buf ++ chunk.items).length := by
          rwa [length_append]
        rw [streamLine, scan_tooLong freeAll long]
        simp [readLoop, found, tooLong, observe, FrameError.errorKind]
      · have short : (buf ++ chunk.items).length ≤ maxFrameBytes := by
          rw [length_append]
          omega
        rw [← ih _ freeAll short, length_append]
        simp [readLoop, found, tooLong]

section Frames

variable {T : Type} (serde : Serde T) (reader : Reader)

/-- **`read_frame` reads the next frame of the flat bytes**, however the
transport has cut them. -/
theorem observe_readFrame :
    observe (readFrame serde reader).1 (readFrame serde reader).2.chunks =
      streamRead serde reader.fault (flat reader.chunks) := by
  have line := observe_readLoop reader.fault reader.chunks [] (by simp) (by simp)
  rw [nil_append] at line
  rw [streamRead, ← line, readFrame]
  rcases readLoop reader.fault [] 0 reader.chunks with ⟨_ | _ | buf, chunks⟩
  · rfl
  · rfl
  · cases decoded : serde.fromSlice buf with
    | error => simp [observe, StreamRead.decode, decoded, FrameError.errorKind]
    | ok => simp [observe, StreamRead.decode, decoded]

theorem readFrame_fault : (readFrame serde reader).2.fault = reader.fault := by
  rw [readFrame]
  rcases readLoop reader.fault [] 0 reader.chunks with ⟨_ | _ | buf, chunks⟩
  · rfl
  · rfl
  · cases decoded : serde.fromSlice buf <;> simp [decoded]

theorem streamRead_rest_length_lt {fault : Option IoError} {bytes rest : List UInt8} {frame : T}
    (read : streamRead serde fault bytes = .frame frame rest) : rest.length < bytes.length := by
  rw [streamRead, streamLine] at read
  cases scanned : scan maxFrameBytes newline bytes with
  | tooLong | unterminated => simp [scanned, StreamRead.decode] at read
  | ended => cases fault <;> simp [scanned, StreamRead.decode] at read
  | found line =>
    cases decoded : serde.fromSlice line with
    | error => simp [scanned, StreamRead.decode, decoded] at read
    | ok =>
      simp only [scanned, StreamRead.decode, decoded, StreamRead.frame.injEq] at read
      rw [← read.2]
      exact scan_rest_length_lt scanned

theorem readFrame_shrinks {reader reader' : Reader} {frame : T}
    (read : readFrame serde reader = (.ok (some frame), reader')) :
    (flat reader'.chunks).length < (flat reader.chunks).length := by
  have observed := observe_readFrame serde reader
  rw [read] at observed
  exact streamRead_rest_length_lt serde observed.symm

/-! ## Reading to the end -/

def readAll (reader : Reader) : List (Except FrameError (Option T)) :=
  match _read : readFrame serde reader with
  | (.ok (some frame), reader') => .ok (some frame) :: readAll reader'
  | (.ok none, _) => [.ok none]
  | (.error error, _) => [.error error]
termination_by (flat reader.chunks).length
decreasing_by exact readFrame_shrinks serde _read

def streamAll (fault : Option IoError) (bytes : List UInt8) : List (Except ErrorKind (Option T)) :=
  match _read : streamRead serde fault bytes with
  | .frame frame rest => .ok (some frame) :: streamAll fault rest
  | .ended => [.ok none]
  | .failed kind => [.error kind]
termination_by bytes.length
decreasing_by exact streamRead_rest_length_lt serde _read

theorem streamAll_eq (fault : Option IoError) (bytes : List UInt8) :
    streamAll serde fault bytes =
      match streamRead serde fault bytes with
      | .frame frame rest => .ok (some frame) :: streamAll serde fault rest
      | .ended => [.ok none]
      | .failed kind => [.error kind] := by
  rw [streamAll]
  split <;> rename_i read <;> rw [read]

def resultKind : Except FrameError (Option T) → Except ErrorKind (Option T)
  | .ok frame => .ok frame
  | .error error => .error error.errorKind

/-- **Every run of the reader is the run on the flat bytes.** -/
theorem readAll_kinds :
    (readAll serde reader).map resultKind = streamAll serde reader.fault (flat reader.chunks) := by
  fun_induction readAll serde reader with
  | case1 reader frame reader' read ih =>
    have fault := readFrame_fault serde reader
    have observed := observe_readFrame serde reader
    rw [read] at observed fault
    rw [streamAll_eq, ← observed, ← fault]
    simp only [map_cons, resultKind, observe, ih]
  | case2 reader reader' read | case3 reader error reader' read =>
    have observed := observe_readFrame serde reader
    rw [read] at observed
    rw [streamAll_eq, ← observed]
    rfl

/-! ## Writing -/

theorem writeFrame_eq_ok {writer writer' : Writer} {frame : T}
    (accepted : writeFrame serde writer frame = .ok writer') :
    ∃ buf, serde.toVec frame = .ok buf ∧ buf.length ≤ maxFrameBytes ∧ writer.fault = none ∧
      writer' = { writer with sent := writer.sent ++ (buf ++ [newline]) } := by
  rw [writeFrame] at accepted
  cases encoded : serde.toVec frame with
  | error => simp [encoded] at accepted
  | ok buf =>
    cases fault : writer.fault with
    | some =>
      simp only [encoded, fault] at accepted
      split at accepted <;> cases accepted
    | none =>
      simp only [encoded, fault] at accepted
      split at accepted
      · cases accepted
      · rename_i within
        cases accepted
        exact ⟨buf, rfl, Nat.not_lt.mp within, rfl, rfl⟩

theorem streamAll_writeFrames (lawful : serde.Lawful) :
    ∀ (frames : List T) (writer writer' : Writer),
      writeFrames serde writer frames = .ok writer' →
      ∃ bytes, writer'.sent = writer.sent ++ bytes ∧
        streamAll serde none bytes = frames.map (fun frame => .ok (some frame)) ++ [.ok none] := by
  intro frames
  induction frames with
  | nil =>
    intro writer writer' written
    cases written
    refine ⟨[], by rw [append_nil], ?_⟩
    rw [streamAll_eq]
    rfl
  | cons frame frames ih =>
    intro writer writer'' written
    rw [writeFrames] at written
    cases first : writeFrame serde writer frame with
    | error => simp [first] at written
    | ok =>
      obtain ⟨buf, encoded, within, -, rfl⟩ := writeFrame_eq_ok serde first
      rw [first] at written
      obtain ⟨bytes, sent, later⟩ := ih _ _ written
      refine ⟨buf ++ newline :: bytes, ?_, ?_⟩
      · rw [sent]
        simp only [append_assoc, cons_append, nil_append]
      · -- the encoding has no newline of its own, so the first line is the frame
        have line : scan maxFrameBytes newline (buf ++ newline :: bytes) = _ :=
          scan_delimited (lawful.noNewline frame buf encoded) bytes
        rw [streamAll_eq, streamRead, streamLine, line, if_neg (Nat.not_lt.mpr within)]
        simp only [StreamRead.decode, lawful.roundTrip frame buf encoded, later,
          map_cons, cons_append]

theorem eq_of_map_resultKind {results : List (Except FrameError (Option T))}
    {values : List (Option T)} (kinds : results.map resultKind = values.map .ok) :
    results = values.map .ok := by
  induction results generalizing values with
  | nil =>
    rw [map_nil, eq_comm, map_eq_nil_iff] at kinds
    rw [kinds, map_nil]
  | cons result results ih =>
    obtain ⟨value, later, rfl, first, rest⟩ := map_eq_cons_iff.mp kinds.symm
    cases result with
    | error => cases first
    | ok =>
      cases first
      rw [map_cons, ih rest.symm]

/-- **The codec does not see how the transport cuts the stream**: accepted frames are read back from
every chunking, and two chunkings of any bytes give the same results up to the first error. -/
theorem readAll_chunking_independent :
    (serde.Lawful → ∀ (frames : List T) (writer : Writer),
      writeFrames serde {} frames = .ok writer →
        ∀ chunks : List (Chunk UInt8), flat chunks = writer.sent →
          readAll serde { chunks } = frames.map (fun frame => .ok (some frame)) ++ [.ok none]) ∧
    (∀ reader reader' : Reader, flat reader.chunks = flat reader'.chunks →
      reader.fault = reader'.fault →
        (readAll serde reader).map resultKind = (readAll serde reader').map resultKind) := by
  refine ⟨fun lawful frames writer written chunks cut => ?_, fun reader reader' bytes fault => ?_⟩
  · obtain ⟨bytes, sent, read⟩ := streamAll_writeFrames serde lawful frames {} writer written
    have kinds := readAll_kinds serde { chunks }
    have values : frames.map (fun frame => .ok (some frame)) ++ [.ok none] =
        (frames.map some ++ [none]).map (Except.ok : Option T → Except FrameError (Option T)) := by
      simp
    rw [values]
    apply eq_of_map_resultKind
    rw [kinds, cut, sent, nil_append, read]
    simp
  · rw [readAll_kinds, readAll_kinds, bytes, fault]

end Frames

def boolSerde : Serde Bool where
  toVec
    | true => .ok [116, 114, 117, 101]
    | false => .ok [102, 97, 108, 115, 101]
  fromSlice bytes :=
    if bytes = [116, 114, 117, 101] then .ok true
    else if bytes = [102, 97, 108, 115, 101] then .ok false
    else .error "expected value"

/-- Two frames in three chunks, and the bytes `tru` at the end, whole and in two pieces. -/
theorem readAll_bools :
    readAll boolSerde
        { chunks := [⟨[116, 114], by simp⟩, ⟨[117, 101, 10, 102, 97], by simp⟩,
            ⟨[108, 115, 101, 10], by simp⟩] } =
      [.ok (some true), .ok (some false), .ok none] ∧
    (readAll boolSerde { chunks := [⟨[116, 114, 117], by simp⟩] }).map resultKind =
      (readAll boolSerde
        { chunks := [⟨[116], by simp⟩, ⟨[114, 117], by simp⟩] }).map resultKind := by
  have lawful : boolSerde.Lawful := by
    constructor <;> (rintro (_ | _) bytes encoded <;> cases encoded <;> decide)
  exact ⟨(readAll_chunking_independent boolSerde).1 lawful [true, false] _ rfl _ rfl,
    (readAll_chunking_independent boolSerde).2 _ _ rfl rfl⟩

end Havn.Proto.Codec
