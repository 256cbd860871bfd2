import PgProto.Codec.DecodeBackend
import PgProto.Lib.Stream

/-!
# Framing — frames out of a byte stream

`PgCodec` of `src/codec.rs`: the decoder and the encoder of tagged frames over a buffer, for the two
directions of the protocol.  A call of the decoder returns a message, asks for more bytes or fails;
beside its result it leaves the buffer, and it may have reserved space in it.

`PgCodec.decoder` is an `Incremental` decoder, so what a connection decodes does not depend on how
the bytes of its frames were cut into chunks.
-/

namespace PgProto

open Lib

/-! ## Codecs -/

/-- `Direction`: the messages of one side of a connection and the decoder of their frames. -/
structure Direction where
  Message : Type
  decode : Frame → Except IoError Message

def Direction.frontend : Direction :=
  { Message := FrontendMessage
    decode := Frontend.decode }

def Direction.backend : Direction :=
  { Message := BackendMessage
    decode := Backend.decode }

/-- A codec, whose limit an empty frame meets and the length field can express. -/
structure PgCodec (D : Direction) where
  maxFrameLen : Nat
  atLeast : 5 ≤ maxFrameLen
  atMost : maxFrameLen ≤ maxProtocolFrameLen

def PgCodec.withMaxFrameLen (D : Direction) (maxFrameLen : Nat) : Except IoError (PgCodec D) :=
  if h : 5 ≤ maxFrameLen ∧ maxFrameLen ≤ maxProtocolFrameLen then
    .ok { maxFrameLen := maxFrameLen, atLeast := h.1, atMost := h.2 }
  else
    .error (invalidInput "frame limit is outside PostgreSQL's tagged-frame range")

/-- `DEFAULT_MAX_FRAME_LEN`. -/
def defaultMaxFrameLen : Nat := 16 * 1024 * 1024

instance (D : Direction) : Inhabited (PgCodec D) where
  default := { maxFrameLen := defaultMaxFrameLen, atLeast := by decide, atMost := by decide }

/-! ## Calls -/

/-- What a call leaves: its result, the buffer, and the space it reserved behind the buffer. -/
structure Attempt (α : Type) where
  result : Except IoError (Option α)
  source : Bytes
  reserved : Nat

namespace Attempt

variable {α : Type}

/-- Asks for the bytes which a frame of this length still lacks. -/
def wait (source : Bytes) (length : Nat) : Attempt α :=
  { result := .ok none
    source := source
    reserved := length - source.length }

def fail (source : Bytes) (message : String) : Attempt α :=
  { result := .error (invalid message)
    source := source
    reserved := 0 }

end Attempt

/-- The length field behind the tag. -/
def headerLength (source : Bytes) : Nat :=
  fromBeBytes ((source.drop 1).take 4)

/-- On a 64-bit target the conversion of the length field and the addition never overflow. -/
def decodeFrame (source : Bytes) (maxFrameLen : Nat) : Attempt Frame :=
  if source.length < 5 then
    .wait source 5
  else
    let length := headerLength source
    if length < 4 then
      .fail source "message length is smaller than its length field"
    else
      let frameLength := length + 1
      if maxProtocolFrameLen < frameLength then
        .fail source "message length exceeds PostgreSQL's signed int32 range"
      else if maxFrameLen < frameLength then
        .fail source "message exceeds configured frame limit"
      else if source.length < frameLength then
        .wait source frameLength
      else
        { result := .ok (some { tag := source.headD 0, body := (source.take frameLength).drop 5 })
          source := source.drop frameLength
          reserved := 0 }

/-- The failure of a body names the tag of its frame. -/
def bodyError (tag : UInt8) (error : IoError) : IoError :=
  { kind := error.kind
    message := "message tag 0x" ++ hexByte tag ++ ": " ++ error.message }

namespace PgCodec

variable {D : Direction} (codec : PgCodec D)

/-- The message of a frame which is complete. -/
def decodeBody (frame : Frame) : Except IoError (Option D.Message) :=
  match D.decode frame with
  | .ok message => .ok (some message)
  | .error error => .error (bodyError frame.tag error)

/-- `Decoder::decode`. -/
def decode (source : Bytes) : Attempt D.Message :=
  let attempt := decodeFrame source codec.maxFrameLen
  match attempt.result with
  | .error error => { attempt with result := .error error }
  | .ok none => { attempt with result := .ok none }
  | .ok (some frame) => { attempt with result := decodeBody frame }

/-- `Encoder::encode`: all checks come before the first write to the destination. -/
def encode (item : Frame) (destination : Bytes) : Except IoError Unit × Bytes :=
  match encodeFrame codec.maxFrameLen item with
  | .ok word => (.ok (), destination ++ word)
  | .error error => (.error error, destination)

end PgCodec

/-! ## Frames -/

/-- The bytes of a frame. -/
def Frame.word (frame : Frame) : Bytes :=
  putU8 frame.tag ++ putU32 (UInt32.ofNat (frame.body.length + 4)) ++ frame.body

theorem Frame.word_length (frame : Frame) : frame.word.length = frame.body.length + 5 := by
  simp only [word, putU8, putU32, List.length_append, List.length_cons, List.length_nil]
  omega

theorem encodeFrame_eq_ok {maxFrameLen : Nat} {frame : Frame} {w : Bytes}
    (hmax : maxFrameLen ≤ maxProtocolFrameLen) :
    encodeFrame maxFrameLen frame = .ok w ↔ frame.word.length ≤ maxFrameLen ∧ frame.word = w := by
  have hproto : maxProtocolFrameLen ≤ u32Max := by decide
  rw [Frame.word_length]
  simp only [encodeFrame]
  split_ifs with hlong hfits
  · simp only [false_iff, not_and]
    omega
  · simp only [Except.ok.injEq, Frame.word, iff_and_self]
    omega
  · omega

theorem headerLength_append {s : Bytes} (h : 5 ≤ s.length) (t : Bytes) :
    headerLength (s ++ t) = headerLength s := by
  rw [headerLength, headerLength, List.drop_append_of_le_length (by omega),
    List.take_append_of_le_length (by rw [List.length_drop]; omega)]

theorem headerLength_word {frame : Frame} (h : frame.body.length + 4 ≤ u32Max) (t : Bytes) :
    headerLength (frame.word ++ t) = frame.body.length + 4 := by
  have hfield : ((frame.word ++ t).drop 1).take 4 =
      putU32 (UInt32.ofNat (frame.body.length + 4)) := rfl
  rw [headerLength, hfield, fromBeBytes_putU32]
  exact UInt32.toNat_ofNat_of_lt' (Nat.lt_succ_of_le h)

/-- A header of five bytes and the body which it announces are the bytes of a frame. -/
theorem eq_word_append {source : Bytes} (hheader : 4 ≤ headerLength source)
    (hsource : headerLength source + 1 ≤ source.length) :
    source = Frame.word { tag := source.headD 0
                          body := (source.take (headerLength source + 1)).drop 5 } ++
      source.drop (headerLength source + 1) := by
  obtain ⟨tag, a, b, c, d, rest, rfl⟩ : ∃ tag a b c d rest,
      source = tag :: a :: b :: c :: d :: rest := by
    have hlen : 5 ≤ source.length := by omega
    rcases source with _ | ⟨tag, _ | ⟨a, _ | ⟨b, _ | ⟨c, _ | ⟨d, rest⟩⟩⟩⟩⟩ <;> simp at hlen ⊢
  have hlength : headerLength (tag :: a :: b :: c :: d :: rest) = fromBeBytes [a, b, c, d] := rfl
  obtain ⟨n, hn⟩ : ∃ n, fromBeBytes [a, b, c, d] = n + 4 := ⟨_, (Nat.sub_add_cancel hheader).symm⟩
  have hbody : (rest.take n).length = n := by
    simp only [hlength, hn, List.length_cons] at hsource
    exact List.length_take_of_le (by omega)
  have hfield : putU32 (UInt32.ofNat (n + 4)) = [a, b, c, d] := by
    rw [← hn]
    exact putU32_ofNat_fromBeBytes rfl
  simp only [hlength, hn, Frame.word, List.headD_cons, List.take_succ_cons, List.drop_succ_cons,
    List.drop_zero, hbody, hfield]
  simp [putU8]

/-! ## What a call can do -/

/-- The header of a frame which no codec with this limit takes. -/
def BadHeader (maxFrameLen : Nat) (source : Bytes) : Prop :=
  5 ≤ source.length ∧ (headerLength source < 4 ∨ maxFrameLen < headerLength source + 1)

/-- The three outcomes of a call: it waits and reserves what one frame still lacks, it rejects the
header, or it takes one frame off the buffer. -/
inductive Framed (maxFrameLen : Nat) (source : Bytes) : Attempt Frame → Prop
  | wait (reserved : Nat) (hspace : source.length + reserved ≤ maxFrameLen) :
      Framed maxFrameLen source { result := .ok none, source := source, reserved := reserved }
  | header (error : IoError) (hheader : BadHeader maxFrameLen source) :
      Framed maxFrameLen source { result := .error error, source := source, reserved := 0 }
  | frame (frame : Frame) (rest : Bytes) (hfits : frame.word.length ≤ maxFrameLen)
      (hsource : source = frame.word ++ rest) :
      Framed maxFrameLen source { result := .ok (some frame), source := rest, reserved := 0 }

section Limits

variable {maxFrameLen : Nat}

theorem decodeFrame_framed (hmin : 5 ≤ maxFrameLen) (hmax : maxFrameLen ≤ maxProtocolFrameLen)
    (source : Bytes) : Framed maxFrameLen source (decodeFrame source maxFrameLen) := by
  simp only [decodeFrame]
  split_ifs with hshort hsmall hproto hlimit hpartial
  · exact .wait _ (by omega)
  · exact .header _ ⟨by omega, .inl hsmall⟩
  · exact .header _ ⟨by omega, .inr (by omega)⟩
  · exact .header _ ⟨by omega, .inr hlimit⟩
  · exact .wait _ (by omega)
  · refine .frame _ _ ?_ (eq_word_append (by omega) (by omega))
    rw [Frame.word_length, List.length_drop, List.length_take_of_le (by omega)]
    omega

/-- The bytes of a frame within the limit are taken off the buffer, whatever follows them. -/
theorem decodeFrame_word (hmax : maxFrameLen ≤ maxProtocolFrameLen) {frame : Frame}
    (hfits : frame.word.length ≤ maxFrameLen) (rest : Bytes) :
    decodeFrame (frame.word ++ rest) maxFrameLen =
      { result := .ok (some frame), source := rest, reserved := 0 } := by
  have hproto : maxProtocolFrameLen ≤ u32Max := by decide
  have hword := frame.word_length
  have hheader : headerLength (frame.word ++ rest) + 1 = frame.word.length := by
    rw [headerLength_word (by omega), hword]
  simp only [decodeFrame, hheader]
  rw [if_neg (by rw [List.length_append]; omega), if_neg (by omega), if_neg (by omega),
    if_neg (by omega), if_neg (by rw [List.length_append]; omega), List.take_left, List.drop_left]
  rfl

theorem decodeFrame_badHeader {source : Bytes} (h : BadHeader maxFrameLen source) :
    ∃ message, decodeFrame source maxFrameLen = .fail source message := by
  obtain ⟨hlong, hlength⟩ := h
  simp only [decodeFrame]
  split_ifs with hshort hsmall hproto hlimit hpartial
  · omega
  · exact ⟨_, rfl⟩
  · exact ⟨_, rfl⟩
  · exact ⟨_, rfl⟩
  · omega
  · omega

/-- Bytes which arrive later do not change what a call has decided. -/
theorem decodeFrame_append {s : Bytes} (h : (decodeFrame s maxFrameLen).result ≠ .ok none)
    (t : Bytes) :
    decodeFrame (s ++ t) maxFrameLen =
      { decodeFrame s maxFrameLen with source := (decodeFrame s maxFrameLen).source ++ t } := by
  by_cases hshort : s.length < 5
  · exact absurd (by simp only [decodeFrame, if_pos hshort]; rfl) h
  -- the header is complete, so the longer buffer has the same one
  have hheader : headerLength (s ++ t) = headerLength s := headerLength_append (by omega) t
  have hlong : ¬ (s ++ t).length < 5 := by
    rw [List.length_append]
    omega
  simp only [decodeFrame, if_neg hshort, if_neg hlong, hheader] at h ⊢
  split_ifs at h ⊢ with hsmall hproto hlimit hmore hpartial hpartial
  · rfl
  · rfl
  · rfl
  · exact absurd rfl h
  · rw [List.length_append] at hmore
    omega
  · exact absurd rfl h
  · have hhead : (s ++ t).headD 0 = s.headD 0 := by
      cases s with
      | nil => exact absurd (by simp) hshort
      | cons b bs => rfl
    rw [hhead, List.take_append_of_le_length (by omega), List.drop_append_of_le_length (by omega)]

end Limits

namespace PgCodec

variable {D : Direction} (codec : PgCodec D)

theorem decode_cases (source : Bytes) :
    (∃ reserved, source.length + reserved ≤ codec.maxFrameLen ∧
      codec.decode source = { result := .ok none, source := source, reserved := reserved }) ∨
    (∃ error, BadHeader codec.maxFrameLen source ∧
      codec.decode source = { result := .error error, source := source, reserved := 0 }) ∨
    (∃ frame rest, frame.word.length ≤ codec.maxFrameLen ∧ source = frame.word ++ rest ∧
      codec.decode source =
        { result := decodeBody frame, source := rest, reserved := 0 }) := by
  have h := decodeFrame_framed codec.atLeast codec.atMost source
  generalize hattempt : decodeFrame source codec.maxFrameLen = attempt at h
  cases h with
  | wait reserved hspace =>
    exact .inl ⟨reserved, hspace, by simp only [decode, hattempt]⟩
  | header error hheader =>
    exact .inr (.inl ⟨error, hheader, by simp only [decode, hattempt]⟩)
  | frame frame rest hfits hsource =>
    exact .inr (.inr ⟨frame, rest, hfits, hsource, by simp only [decode, hattempt]⟩)

theorem decode_word {frame : Frame} (hfits : frame.word.length ≤ codec.maxFrameLen)
    (rest : Bytes) :
    codec.decode (frame.word ++ rest) =
      { result := decodeBody frame, source := rest, reserved := 0 } := by
  simp only [decode, decodeFrame_word codec.atMost hfits]

theorem decodeBody_ne_none (frame : Frame) : decodeBody (D := D) frame ≠ .ok none := by
  rw [decodeBody]
  split <;> simp

theorem decode_append {s : Bytes} (h : (codec.decode s).result ≠ .ok none) (t : Bytes) :
    codec.decode (s ++ t) =
      { codec.decode s with source := (codec.decode s).source ++ t } := by
  have hframe : (decodeFrame s codec.maxFrameLen).result ≠ .ok none := by
    intro hnone
    exact h (by simp only [decode, hnone])
  simp only [decode, decodeFrame_append hframe t]
  split <;> rfl

/-- The decoder of a connection. -/
def decoder : Incremental UInt8 IoError D.Message where
  decode source := ((codec.decode source).result, (codec.decode source).source)
  waits s h := by
    obtain ⟨_, _, hdecode⟩ | ⟨_, _, hdecode⟩ | ⟨frame, rest, _, _, hdecode⟩ := codec.decode_cases s
    · rw [hdecode]
    · rw [hdecode]
    · rw [hdecode] at h
      exact absurd h (decodeBody_ne_none frame)
  progress s a h := by
    obtain ⟨_, _, hdecode⟩ | ⟨_, _, hdecode⟩ | ⟨frame, rest, _, hs, hdecode⟩ := codec.decode_cases s
    · rw [hdecode] at h
      cases h
    · rw [hdecode] at h
      cases h
    · have hword := frame.word_length
      simp only [hdecode]
      rw [hs, List.length_append]
      omega
  stable s t h := by rw [codec.decode_append h]

variable {frame : Frame} {source : Bytes}

/-- The encoder appends the bytes of a frame within the limit and refuses any other frame. -/
theorem encode_eq_ok {destination destination' : Bytes} :
    codec.encode frame destination = (.ok (), destination') ↔
      frame.word.length ≤ codec.maxFrameLen ∧ destination ++ frame.word = destination' := by
  cases hframe : encodeFrame codec.maxFrameLen frame with
  | error e =>
    simp only [encode, hframe, Prod.mk.injEq, reduceCtorEq, false_and, false_iff, not_and]
    intro hfits
    rw [(encodeFrame_eq_ok codec.atMost).mpr ⟨hfits, rfl⟩] at hframe
    cases hframe
  | ok w =>
    obtain ⟨hfits, rfl⟩ := (encodeFrame_eq_ok codec.atMost).mp hframe
    simp only [encode, hframe, Prod.mk.injEq, true_and, hfits]

theorem encode_refused {destination destination' : Bytes} {error : IoError}
    (h : codec.encode frame destination = (.error error, destination')) :
    destination' = destination := by
  rw [encode] at h
  split at h <;> cases h
  rfl

theorem decoder_word {w : Bytes} {message : D.Message}
    (hencode : codec.encode frame [] = (.ok (), w)) (hdecode : D.decode frame = .ok message) :
    codec.decoder.Word w message := by
  obtain ⟨hfits, rfl⟩ := codec.encode_eq_ok.mp hencode
  intro t
  have hbody : decodeBody frame = .ok (some message) := by rw [decodeBody, hdecode]
  simp only [decoder, List.nil_append, codec.decode_word hfits, hbody]

theorem decode_nil : (codec.decoder.decode []).1 = .ok none := rfl

theorem decoder_words {frames : List Frame} {words : List Bytes} {messages : List D.Message}
    (hencode : List.Forall₂ (fun frame word => codec.encode frame [] = (.ok (), word)) frames words)
    (hdecode : List.Forall₂ (fun frame message => D.decode frame = .ok message) frames messages) :
    List.Forall₂ codec.decoder.Word words messages := by
  induction hencode generalizing messages with
  | nil =>
    cases hdecode
    exact .nil
  | cons hword _ ih =>
    cases hdecode with
    | cons hmessage hmessages => exact .cons (codec.decoder_word hword hmessage) (ih hmessages)

/-- A failing call has met a bad header, and left the buffer alone, or the body of one frame, and
taken exactly this frame. -/
theorem error_cases {error : IoError} (h : (codec.decode source).result = .error error) :
    (BadHeader codec.maxFrameLen source ∧ (codec.decode source).source = source) ∨
    ∃ frame inner, frame.word.length ≤ codec.maxFrameLen ∧ D.decode frame = .error inner ∧
      error = bodyError frame.tag inner ∧ source = frame.word ++ (codec.decode source).source := by
  obtain ⟨_, _, hdecode⟩ | ⟨_, hheader, hdecode⟩ | ⟨frame, rest, hfits, hsource, hdecode⟩ :=
    codec.decode_cases source
  · rw [hdecode] at h
    cases h
  · rw [hdecode]
    exact .inl ⟨hheader, rfl⟩
  · rw [hdecode] at h ⊢
    simp only [decodeBody] at h
    split at h
    · cases h
    · cases h
      exact .inr ⟨frame, _, hfits, by assumption, rfl, hsource⟩

theorem decode_badHeader (h : BadHeader codec.maxFrameLen source) :
    ∃ error, codec.decode source = { result := .error error, source := source, reserved := 0 } := by
  obtain ⟨message, hfail⟩ := decodeFrame_badHeader h
  exact ⟨invalid message, by simp only [decode, hfail, Attempt.fail]⟩

theorem reserved_le (h : (codec.decode source).reserved ≠ 0) :
    source.length + (codec.decode source).reserved ≤ codec.maxFrameLen := by
  obtain ⟨_, hspace, hdecode⟩ | ⟨_, _, hdecode⟩ | ⟨_, _, _, _, hdecode⟩ := codec.decode_cases source
  · rw [hdecode]
    exact hspace
  · rw [hdecode] at h
    exact absurd rfl h
  · rw [hdecode] at h
    exact absurd rfl h

end PgCodec

/-! ## Chunks -/

theorem PgCodec.maxFrameLen_of_withMaxFrameLen {D : Direction} {maxFrameLen : Nat}
    {codec : PgCodec D} (h : PgCodec.withMaxFrameLen D maxFrameLen = .ok codec) :
    codec.maxFrameLen = maxFrameLen := by
  simp only [withMaxFrameLen] at h
  split_ifs at h
  cases h
  rfl

/-- Frames which a codec encodes and which are cut into any chunks arrive as they were sent, and
nothing else is taken off the buffer or asked of it than one frame within the limit. -/
theorem framing_chunk_independent (D : Direction) (maxFrameLen : Nat) (codec : PgCodec D)
    (hcodec : PgCodec.withMaxFrameLen D maxFrameLen = .ok codec) :
    (∀ (frames : List Frame) (words : List Bytes) (messages : List D.Message) (chunks : List Bytes),
      List.Forall₂ (fun frame word => codec.encode frame [] = (.ok (), word)) frames words →
      List.Forall₂ (fun frame message => D.decode frame = .ok message) frames messages →
      chunks.flatten = words.flatten →
      codec.decoder.feed [] chunks = { items := messages, rest := .ok [] }) ∧
    (∀ frame destination error destination',
      codec.encode frame destination = (.error error, destination') → destination' = destination) ∧
    (∀ source, (codec.decode source).result = .ok none → (codec.decode source).source = source) ∧
    (∀ source, BadHeader maxFrameLen source →
      ∃ error, (codec.decode source).result = .error error ∧ (codec.decode source).source = source) ∧
    (∀ frame word error rest, codec.encode frame [] = (.ok (), word) →
      D.decode frame = .error error →
      (codec.decode (word ++ rest)).result = .error (bodyError frame.tag error) ∧
        (codec.decode (word ++ rest)).source = rest) ∧
    (∀ source error, (codec.decode source).result = .error error →
      (BadHeader maxFrameLen source ∧ (codec.decode source).source = source) ∨
      ∃ frame word inner, codec.encode frame [] = (.ok (), word) ∧ D.decode frame = .error inner ∧
        source = word ++ (codec.decode source).source) ∧
    (∀ source, (codec.decode source).reserved ≠ 0 →
      source.length + (codec.decode source).reserved ≤ maxFrameLen) := by
  obtain rfl := PgCodec.maxFrameLen_of_withMaxFrameLen hcodec
  refine ⟨?chunks, ?refused, codec.decoder.waits, ?header, ?body, ?errors, ?space⟩
  case chunks =>
    intro frames words messages chunks hencode hdecode hchunks
    exact Incremental.feed_words (codec.decoder_words hencode hdecode) codec.decode_nil hchunks
  case refused =>
    intro frame destination error destination' h
    exact codec.encode_refused h
  case header =>
    intro source h
    obtain ⟨error, hdecode⟩ := codec.decode_badHeader h
    exact ⟨error, by rw [hdecode], by rw [hdecode]⟩
  case body =>
    intro frame word error rest hencode hbody
    obtain ⟨hfits, rfl⟩ := codec.encode_eq_ok.mp hencode
    rw [List.nil_append, codec.decode_word hfits]
    exact ⟨by simp only [PgCodec.decodeBody, hbody], rfl⟩
  case errors =>
    intro source error h
    obtain hheader | ⟨frame, inner, hfits, hbody, _, hsource⟩ := codec.error_cases h
    · exact .inl hheader
    · exact .inr ⟨frame, frame.word, inner, codec.encode_eq_ok.mpr ⟨hfits, rfl⟩, hbody, hsource⟩
  case space =>
    intro source h
    exact codec.reserved_le h

/-- Two server messages in three chunks, the cuts inside a header and inside a body. -/
theorem framing_chunk_independent_ready :
    ∃ codec : PgCodec Direction.backend,
      PgCodec.withMaxFrameLen Direction.backend 64 = .ok codec ∧
      codec.decoder.feed [] [[49, 0, 0], [0, 4, 90, 0, 0, 0, 5], [73]] =
        { items := [BackendMessage.parseComplete, .readyForQuery .idle], rest := .ok [] } := by
  refine ⟨⟨64, by decide, by decide⟩, rfl, ?_⟩
  exact (framing_chunk_independent Direction.backend 64 _ rfl).1
    [emptyMessage 49, { tag := 90, body := [73] }] [[49, 0, 0, 0, 4], [90, 0, 0, 0, 5, 73]]
    [BackendMessage.parseComplete, .readyForQuery .idle] _
    (.cons rfl (.cons rfl .nil)) (.cons rfl (.cons rfl .nil)) rfl

end PgProto
