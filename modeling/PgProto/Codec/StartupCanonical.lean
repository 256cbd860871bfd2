import PgProto.Codec.Startup

/-!
# StartupCanonical — packets that the untagged decoder accepts

What the decoder takes off a buffer is a packet of the message that it returns.  So a message comes
back from its packet exactly when the wire form tells what it is: `pre_startup_unambiguous`.

The packet need not be the one that the encoder writes, since the parameters of a startup packet may
come in any order and are kept in a sorted map.  `StartupMessage.decode_eq_ok` says that this is the
only freedom.
-/

namespace PgProto

open Lib PreStartupMessage

/-! ## Startup packets -/

variable {packet : Bytes}

namespace StartupMessage

/-- A startup packet of the version with these pairs in this order. -/
def IsPacket (version : ProtocolVersion) (pairs : List (Bytes × Bytes)) (packet : Bytes) : Prop :=
  ∃ words, pairs.mapM putParameter = .ok words ∧
    packet = putU32 (UInt32.ofNat packet.length) ++
      (putU16 version.major ++ putU16 version.minor ++ words.flatten ++ putU8 0)

/-- What the decoder accepts: the parameters of the message in some order, each with a name. -/
theorem decode_eq_ok {message : StartupMessage} (h : decode packet = .ok message) :
    ∃ pairs, pairs.Perm message.parameters.entries ∧ (∀ pair ∈ pairs, pair.1 ≠ []) ∧
      IsPacket message.version pairs packet := by
  rw [decode] at h
  split_ifs at h
  simp only [Reader.run'_eq_ok, Reader.run_bind_eq_ok, takeU32_inverts.run_iff, Except.ok.injEq,
    exists_eq_left', Reader.run_get_bind] at h
  obtain ⟨rest, declared, body, rfl, h⟩ := h
  split_ifs at h with hdeclared
  · simp only [Reader.run_bind_eq_ok, Reader.run_throw_eq_ok] at h
    obtain ⟨_, _, hfalse, _⟩ := h
    exact hfalse.elim
  simp only [Reader.run_bind_eq_ok, takeU16_inverts.run_iff, Except.ok.injEq, exists_eq_left',
    Reader.run_get_bind] at h
  obtain ⟨major, _, rfl, minor, _, rfl, parameters, trailing, hloop, h⟩ := h
  obtain ⟨pairs, words, hwords, hheads, rfl, hfold⟩ :=
    (takeParameter_rounds.run_readUntil fun _ _ => putParameter_ne_nil).mp hloop
  -- nothing may follow the terminator
  cases trailing with
  | cons byte trailing =>
    simp only [List.isEmpty_cons, Bool.false_eq_true, if_false, Reader.run_bind_eq_ok,
      Reader.run_throw_eq_ok] at h
    obtain ⟨_, _, hfalse, _⟩ := h
    exact hfalse.elim
  | nil =>
    cases h
    have hnames : ∀ pair ∈ pairs, pair.1 ≠ [] :=
      (forall_mem_words_iff (fun _ _ => putParameter_head_iff) hwords).mp hheads
    refine ⟨pairs, (SortedMap.foldlM_insertNew_perm hfold).symm, hnames, words, hwords, ?_⟩
    -- the declared length is the length of the packet
    have hlength : UInt32.ofNat (putU32 declared ++ (putU16 major ++
        (putU16 minor ++ (words.flatten ++ [0])))).length = declared := by
      have hcount : (putU32 declared ++ (putU16 major ++
          (putU16 minor ++ (words.flatten ++ [0])))).length = declared.toNat := by
        rw [not_not.mp hdeclared, List.length_append]
        exact Nat.add_comm _ _
      rw [hcount, UInt32.ofNat_toNat]
    rw [hlength]
    simp [putU8]

/-- An accepted packet within the limits of the encoder is as long as the one it writes. -/
theorem encode_of_decode {message : StartupMessage} (h : decode packet = .ok message)
    (hle : packet.length ≤ i32Max) :
    ∃ packet', message.encode = .ok packet' ∧ packet'.length = packet.length := by
  obtain ⟨pairs, hperm, -, words, hwords, hpacket⟩ := decode_eq_ok h
  obtain ⟨words', hwords', hwordsPerm⟩ := mapM_perm hperm hwords
  have hflatten : words'.flatten.length = words.flatten.length := hwordsPerm.flatten.length_eq.symm
  -- the encoder writes the same pairs in the order of their names
  have hlength : packet.length = (message.output words'.flatten).length + 4 := by
    calc packet.length
        = words.flatten.length + 9 := by
          rw [hpacket]
          simp only [putU32, putU16, putU8, List.length_append, List.length_cons, List.length_nil]
          omega
      _ = (message.output words'.flatten).length + 4 := by
          rw [message.output_length, hflatten]
  refine ⟨_, encode_eq_ok.mpr ⟨words'.flatten, putAll_eq_ok.mpr ⟨words', hwords', rfl⟩, ?_, rfl⟩, ?_⟩
  · rw [← hlength]
    exact hle
  · rw [hlength, List.length_append]
    exact Nat.add_comm _ _

end StartupMessage

/-! ## Packets with a code -/

namespace PreStartupMessage

/-- A startup packet has its version where other packets have their code. -/
theorem wordAt_of_isPacket {version : ProtocolVersion} {pairs : List (Bytes × Bytes)}
    (h : StartupMessage.IsPacket version pairs packet) :
    wordAt 4 packet =
      UInt32.ofNat (fromBeBytes (putU16 version.major ++ putU16 version.minor)) := by
  obtain ⟨words, -, hpacket⟩ := h
  rw [hpacket]
  rfl

/-- What is decoded from a packet can be encoded, at the same length, and its packet tells what it
is. -/
theorem toPacket_of_ofPacket {message : PreStartupMessage} (h : ofPacket packet = .ok message)
    (hle : packet.length ≤ i32Max) :
    message.isUnambiguous = true ∧
      ∃ packet', message.toPacket = .ok packet' ∧ packet'.length = packet.length := by
  unfold ofPacket at h
  dsimp only at h
  -- one case for each arm of the match on the code
  split_ifs at h with hssl hgss hcancel hlength
  · cases h
    exact ⟨rfl, _, rfl, hssl.2.symm⟩
  · cases h
    exact ⟨rfl, _, rfl, hgss.2.symm⟩
  · cases h
    have hkey : (packet.drop 12).length = packet.length - 12 := List.length_drop
    refine ⟨rfl, _, cancelPacket_eq_ok.mpr ⟨⟨?_, ?_⟩, rfl⟩, ?_⟩
    · omega
    · omega
    · simp only [putU32, List.length_append, List.length_cons, List.length_nil]
      omega
  · obtain ⟨startup, hdecode, rfl⟩ := except_map_eq_ok.mp h
    obtain ⟨pairs, hperm, hnames, hpacket⟩ := StartupMessage.decode_eq_ok hdecode
    refine ⟨?_, StartupMessage.encode_of_decode hdecode hle⟩
    -- the code of a cancellation request was looked for before
    have hversion : startup.version ≠ cancelVersion := by
      intro hversion
      apply hcancel
      rw [wordAt_of_isPacket hpacket, hversion]
      rfl
    have hentries : ∀ entry ∈ startup.parameters.entries, entry.1 ≠ [] := fun entry hentry =>
      hnames entry (hperm.mem_iff.mpr hentry)
    simpa [isUnambiguous, hversion] using hentries

end PreStartupMessage

/-! ## The buffer -/

/-- The limit is valid, and the length at the front of the buffer is within it. -/
def HeaderAccepted (input : Bytes) (maxPacketLen : Nat) : Prop :=
  (8 ≤ maxPacketLen ∧ maxPacketLen ≤ i32Max) ∧ 4 ≤ input.length ∧
    8 ≤ fromBeBytes (input.take 4) ∧ fromBeBytes (input.take 4) ≤ maxPacketLen

/-- Either nothing is consumed, or the packet which the buffer declares. -/
theorem decodePreStartupWithLimit_cases (input : Bytes) (maxPacketLen : Nat) :
    ((decodePreStartupWithLimit input maxPacketLen).source = input ∧
      (∀ message, (decodePreStartupWithLimit input maxPacketLen).result ≠ .ok (some message)) ∧
      (HeaderAccepted input maxPacketLen → input.length < fromBeBytes (input.take 4))) ∨
    (HeaderAccepted input maxPacketLen ∧ fromBeBytes (input.take 4) ≤ input.length ∧
      decodePreStartupWithLimit input maxPacketLen =
        { result := some <$> ofPacket (input.take (fromBeBytes (input.take 4)))
          source := input.drop (fromBeBytes (input.take 4))
          reserved := 0 }) := by
  unfold decodePreStartupWithLimit
  dsimp only
  split_ifs with hmax hshort hmin hi32 hlimit hwait
  -- the limit is valid
  · exact .inl ⟨rfl, by rintro _ ⟨⟩, fun h => absurd h.2.1 (Nat.not_le.mpr hshort)⟩
  · exact .inl ⟨rfl, by rintro _ ⟨⟩, fun h => absurd h.2.2.1 (Nat.not_le.mpr hmin)⟩
  · exact .inl ⟨rfl, by rintro _ ⟨⟩, fun h => absurd (h.2.2.2.trans h.1.2) (Nat.not_le.mpr hi32)⟩
  · exact .inl ⟨rfl, by rintro _ ⟨⟩, fun h => absurd h.2.2.2 (Nat.not_le.mpr hlimit)⟩
  · exact .inl ⟨rfl, by rintro _ ⟨⟩, fun _ => hwait⟩
  · have hheader : HeaderAccepted input maxPacketLen :=
      ⟨hmax, Nat.not_lt.mp hshort, Nat.not_lt.mp hmin, Nat.not_lt.mp hlimit⟩
    exact .inr ⟨hheader, Nat.not_lt.mp hwait, rfl⟩
  -- the limit is not
  · exact .inl ⟨rfl, by rintro _ ⟨⟩, fun h => absurd h.1 hmax⟩

/-- A packet within the limit is decoded to the message it was made of, and exactly what follows it
is left, for the messages whose wire form tells what they are and no others. -/
theorem pre_startup_unambiguous (message : PreStartupMessage) (packet rest : Bytes)
    (maxPacketLen : Nat) (hpacket : message.toPacket = .ok packet)
    (hlimit : packet.length ≤ maxPacketLen) :
    (decodePreStartupWithLimit (packet ++ rest) maxPacketLen).result = .ok (some message) ∧
        (decodePreStartupWithLimit (packet ++ rest) maxPacketLen).source = rest ↔
      message.isUnambiguous = true ∧ maxPacketLen ≤ i32Max := by
  have hsized := sized_of_toPacket hpacket
  constructor
  · rintro ⟨hresult, -⟩
    rcases decodePreStartupWithLimit_cases (packet ++ rest) maxPacketLen with
      ⟨-, hnone, -⟩ | ⟨⟨hmax, -⟩, -⟩
    · exact absurd hresult (hnone message)
    · rw [decodePreStartupWithLimit_packet hsized hlimit hmax.2] at hresult
      obtain ⟨_, hdecode, hsome⟩ := except_map_eq_ok.mp hresult
      cases hsome
      exact ⟨(toPacket_of_ofPacket hdecode (hlimit.trans hmax.2)).1, hmax.2⟩
  · rintro ⟨hmessage, hmax⟩
    rw [decodePreStartupWithLimit_packet hsized hlimit hmax, ofPacket_toPacket hmessage hpacket]
    exact ⟨rfl, rfl⟩

/-- A startup message with one parameter. -/
def startupMessage (version : ProtocolVersion) (name value : Bytes) : PreStartupMessage :=
  .startup { version := version
             parameters := { entries := [(name, value)], sorted := List.pairwise_singleton _ _ } }

theorem pre_startup_unambiguous_user :
    let message := startupMessage { major := 3, minor := 0 } [117, 115, 101, 114] [97, 98]
    ∃ packet, message.toPacket = .ok packet ∧
      (decodePreStartupWithLimit (packet ++ [1, 2]) 10000).result = .ok (some message) ∧
      (decodePreStartupWithLimit (packet ++ [1, 2]) 10000).source = [1, 2] :=
  ⟨[0, 0, 0, 17, 0, 3, 0, 0, 117, 115, 101, 114, 0, 97, 98, 0, 0], rfl,
    (pre_startup_unambiguous _ _ _ _ rfl (by decide)).2 ⟨by decide, by decide⟩⟩

/-- A startup message is received as a cancellation request, whose process and key are the bytes of
its first parameter; and one with an unnamed parameter is not received at all. -/
theorem startup_taken_for_cancel :
    (∃ packet, (startupMessage cancelVersion [117, 115, 101, 114] [97, 98]).toPacket = .ok packet ∧
      (decodePreStartupWithLimit packet 10000).result =
        .ok (some (.cancelRequest 0x75736572 [0, 97, 98, 0, 0]))) ∧
    (∃ packet, (startupMessage { major := 3, minor := 0 } [] [97]).toPacket = .ok packet ∧
      (decodePreStartupWithLimit packet 10000).result =
        .error (invalid "startup packet has trailing bytes")) :=
  ⟨⟨_, rfl, rfl⟩, ⟨_, rfl, rfl⟩⟩

/-- A decoded message is encoded in as many bytes as were consumed for it, and decoded from them
again; nothing is consumed without a packet; and two startup packets with the same parameters have
the same pairs. -/
theorem pre_startup_canonical (input : Bytes) (maxPacketLen : Nat) :
    (∀ message, (decodePreStartupWithLimit input maxPacketLen).result = .ok (some message) →
      ∃ packet, message.toPacket = .ok packet ∧ packet.length ≤ input.length ∧
        (decodePreStartupWithLimit input maxPacketLen).source = input.drop packet.length ∧
        decodePreStartupWithLimit packet maxPacketLen =
          { result := .ok (some message), source := [], reserved := 0 }) ∧
    ((decodePreStartupWithLimit input maxPacketLen).result = .ok none →
      (decodePreStartupWithLimit input maxPacketLen).source = input) ∧
    (¬ HeaderAccepted input maxPacketLen →
      (decodePreStartupWithLimit input maxPacketLen).source = input) ∧
    ∀ packet packet' message message',
      StartupMessage.decode packet = .ok message → StartupMessage.decode packet' = .ok message' →
      message.parameters = message'.parameters →
        ∃ pairs pairs', pairs.Perm pairs' ∧ pairs.Perm message.parameters.entries ∧
          StartupMessage.IsPacket message.version pairs packet ∧
          StartupMessage.IsPacket message'.version pairs' packet' := by
  refine ⟨?_, ?_, ?_, ?_⟩
  · intro message hmessage
    rcases decodePreStartupWithLimit_cases input maxPacketLen with
      ⟨-, hnone, -⟩ | ⟨⟨hmax, -, -, hlimit⟩, hcomplete, hdecode⟩
    · exact absurd hmessage (hnone message)
    · rw [hdecode] at hmessage ⊢
      obtain ⟨_, hpacket, hsome⟩ := except_map_eq_ok.mp hmessage
      cases hsome
      have htake : (input.take (fromBeBytes (input.take 4))).length = fromBeBytes (input.take 4) :=
        List.length_take_of_le hcomplete
      obtain ⟨hunambiguous, packet, hencode, hlength⟩ :=
        toPacket_of_ofPacket hpacket (by rw [htake]; exact hlimit.trans hmax.2)
      rw [htake] at hlength
      refine ⟨packet, hencode, hlength ▸ hcomplete, by rw [hlength], ?_⟩
      have hagain := decodePreStartupWithLimit_packet (sized_of_toPacket hencode)
        (hlength ▸ hlimit) hmax.2 []
      rw [List.append_nil, ofPacket_toPacket hunambiguous hencode] at hagain
      exact hagain
  · intro hnone
    rcases decodePreStartupWithLimit_cases input maxPacketLen with ⟨hsource, -⟩ | ⟨-, -, hdecode⟩
    · exact hsource
    · rw [hdecode] at hnone
      obtain ⟨_, -, hsome⟩ := except_map_eq_ok.mp hnone
      cases hsome
  · intro hheader
    rcases decodePreStartupWithLimit_cases input maxPacketLen with ⟨hsource, -⟩ | ⟨haccepted, -⟩
    · exact hsource
    · exact absurd haccepted hheader
  · intro packet packet' message message' hdecode hdecode' hsame
    obtain ⟨pairs, hperm, -, hpacket⟩ := StartupMessage.decode_eq_ok hdecode
    obtain ⟨pairs', hperm', -, hpacket'⟩ := StartupMessage.decode_eq_ok hdecode'
    rw [← hsame] at hperm'
    exact ⟨pairs, pairs', hperm.trans hperm'.symm, hperm, hpacket, hpacket'⟩

/-- Two packets of one message. -/
example :
    StartupMessage.decode [0, 0, 0, 17, 0, 3, 0, 0, 97, 0, 49, 0, 98, 0, 50, 0, 0] =
      StartupMessage.decode [0, 0, 0, 17, 0, 3, 0, 0, 98, 0, 50, 0, 97, 0, 49, 0, 0] := by
  rfl

end PgProto
