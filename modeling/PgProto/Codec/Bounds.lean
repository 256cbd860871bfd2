import PgProto.Codec.Buf

/-!
# Bounds — decoders stay within their buffers

The decoders of `Buf` against the readers of `Decode`, `DecodeBackend` and `Startup`.  Every decoder
returns or fails as its reader does.  So each read of a buffer is behind a check of its length: none
of them panics, and room is reserved only for items which the rest of the body could hold.

* `Buf.decodeFrontend_computes`, `Buf.decodeBackend_computes` — the two directions, for every tag;
* `Buf.decodePreStartupWithLimit_computes` — the decoder of untagged packets;
* `Buf.decoders_safe` — all decoders, on every body.
-/

namespace PgProto

open Lib Lib.Cursor

namespace Buf

variable {α : Type}

/-- A decoder and a reader, with the sizes of the items. -/
abbrev Simulates (c : Buf α) (r : Take α) : Prop :=
  Cursor.Simulates Item.minimumLen c r

abbrev Computes (c : Buf α) (f : Bytes → Except IoError α) : Prop :=
  Cursor.Computes Item.minimumLen c f

/-! ## Field readers -/

variable {c : Buf α} {n : Nat}

theorem simulates_require_bind {r : Take α}
    (h : ∀ s, n ≤ s.unread.length → SimulatesAt Item.minimumLen c r s) :
    Simulates (require n >>= fun _ => c) (PgProto.require n >>= fun _ => r) := by
  intro s
  have hrequire : Simulates (require n) (PgProto.require n) :=
    simulates_length_bind fun s => simulates_ite (simulates_fail _) (simulates_pure _) s
  refine (hrequire s).bind fun _ s' hrun => h s' ?_
  obtain ⟨hn, hs⟩ := run_require.1 hrun
  exact hs ▸ hn

theorem simulatesAt_splitTo {s : Buffered Item UInt8} (hn : n ≤ s.unread.length) :
    SimulatesAt Item.minimumLen (Cursor.splitTo n) (PgProto.splitTo n) s :=
  bounded_splitTo hn rfl

theorem takeBytes_simulates (n : Nat) :
    Simulates (require n >>= fun _ => Cursor.splitTo n) (takeBytes n) :=
  simulates_require_bind fun _ => simulatesAt_splitTo

theorem takeWord_simulates (n : Nat) (ofNat : Nat → α) :
    Simulates (require n >>= fun _ => getWord n ofNat)
      ((fun word => ofNat (fromBeBytes word)) <$> takeBytes n) := by
  unfold getWord
  rw [← map_bind]
  exact (takeBytes_simulates n).map _

theorem takeU8_simulates : Simulates takeU8 PgProto.takeU8 := takeWord_simulates 1 _
theorem takeU16_simulates : Simulates takeU16 PgProto.takeU16 := takeWord_simulates 2 _
theorem takeU32_simulates : Simulates takeU32 PgProto.takeU32 := takeWord_simulates 4 _
theorem takeI16_simulates : Simulates takeI16 PgProto.takeI16 := takeU16_simulates.map _
theorem takeI32_simulates : Simulates takeI32 PgProto.takeI32 := takeU32_simulates.map _

theorem requireEmpty_simulates : Simulates requireEmpty PgProto.requireEmpty := by
  refine simulates_length_bind fun s => ?_
  cases hs : s.unread.isEmpty <;> simp_all
  · exact simulates_fail _ s
  · exact simulates_pure _ s

theorem takeCstrOr_simulates (text : String) :
    Simulates (takeCstrOr text) (PgProto.takeCstrOr text) := by
  rintro ⟨unread, reserved⟩
  unfold SimulatesAt takeCstrOr
  -- both look for the terminator first
  rw [PgProto.takeCstrOr, Reader.run_get_bind]
  refine bounded_get_bind ?_
  dsimp only
  cases hfind : unread.findIdx? (· == 0) with
  | none => exact bounded_fail rfl
  | some terminator =>
    have hlt : terminator < unread.length := (List.findIdx?_eq_some_iff_getElem.1 hfind).1
    refine bounded_splitTo_bind (Nat.le_of_lt hlt) (bounded_advance_bind ?_ (bounded_pure rfl))
    show 1 ≤ (unread.drop terminator).length
    rw [List.length_drop]
    omega

theorem takeCstr_simulates : Simulates takeCstr PgProto.takeCstr := takeCstrOr_simulates _

theorem takeTarget_simulates : Simulates takeTarget PgProto.takeTarget :=
  takeU8_simulates.bind fun _ =>
    simulates_ite (simulates_pure _) (simulates_ite (simulates_pure _) (simulates_fail _))

theorem takeSized_simulates (negative : String) :
    Simulates (takeSized negative) (PgProto.takeSized negative) := by
  refine takeI32_simulates.bind fun length => simulates_ite (simulates_pure _)
    (simulates_ite (simulates_fail _) ?_)
  rw [← map_bind]
  exact (takeBytes_simulates _).map _

theorem requireCollectionBytes_simulates (count remaining minimumItemLen : Nat)
    (description : String) :
    Simulates (requireCollectionBytes count remaining minimumItemLen description)
      (PgProto.requireCollectionBytes count remaining minimumItemLen description) :=
  simulates_ite (simulates_fail _) (simulates_ite (simulates_fail _) (simulates_pure _))

section Items

variable {take : Buf α} {read : Take α}

theorem pushMany_simulates (h : Simulates take read) (count : Nat) :
    Simulates (pushMany take count []) (Reader.many read count) := by
  have hmany := h.pushMany count []
  simp only [List.nil_append, id_map'] at hmany
  exact hmany

theorem takeItems_simulates (item : Item) (description : String) (h : Simulates take read)
    (count : Nat) :
    Simulates (takeItems item item.minimumLen description take count)
      (PgProto.takeItems item.minimumLen description read count) := by
  refine simulates_length_bind fun s => SimulatesAt.bind
    (requireCollectionBytes_simulates _ _ _ _ s) fun _ s' hrun => ?_
  obtain ⟨-, hfits, hs⟩ := run_requireCollectionBytes.1 hrun
  exact bounded_withCapacity_bind (hs ▸ hfits) fun _ => pushMany_simulates h count _

theorem takeCounted_simulates (item : Item) (description : String) (h : Simulates take read) :
    Simulates (takeCounted item item.minimumLen description take)
      (PgProto.takeCounted item.minimumLen description read) :=
  takeU16_simulates.bind fun count => takeItems_simulates item description h count.toNat

theorem takeI16Vec_simulates : Simulates takeI16Vec PgProto.takeI16Vec :=
  takeU16_simulates.bind fun _ => simulates_length_bind fun s =>
    (requireCollectionBytes_simulates _ _ _ _).bind
      (fun _ => pushMany_simulates takeI16_simulates _) s

end Items

/-! ## Frontend decoders -/

theorem finish_simulates (a : α) :
    Simulates (requireEmpty >>= fun _ => pure a) (PgProto.requireEmpty >>= fun _ => pure a) :=
  requireEmpty_simulates.bind fun _ => simulates_pure a

theorem decodeParse_computes : Computes decodeParse PgProto.decodeParse :=
  (takeCstr_simulates.bind fun _ => takeCstr_simulates.bind fun _ =>
    (takeCounted_simulates .typeOid _ takeU32_simulates).bind fun _ => finish_simulates _).run'

theorem decodeBind_computes : Computes decodeBind PgProto.decodeBind :=
  (takeCstr_simulates.bind fun _ => takeCstr_simulates.bind fun _ => takeI16Vec_simulates.bind
    fun _ => (takeCounted_simulates .value _ (takeSized_simulates _)).bind fun _ =>
      takeI16Vec_simulates.bind fun _ => finish_simulates _).run'

theorem decodeDescribe_computes : Computes decodeDescribe PgProto.decodeDescribe :=
  (takeTarget_simulates.bind fun _ => takeCstr_simulates.bind fun _ => finish_simulates _).run'

theorem decodeClose_computes : Computes decodeClose PgProto.decodeClose :=
  (takeTarget_simulates.bind fun _ => takeCstr_simulates.bind fun _ => finish_simulates _).run'

theorem decodeExecute_computes : Computes decodeExecute PgProto.decodeExecute :=
  (takeCstr_simulates.bind fun _ => takeI32_simulates.bind fun _ => finish_simulates _).run'

theorem decodeFunctionCall_computes : Computes decodeFunctionCall PgProto.decodeFunctionCall :=
  (takeU32_simulates.bind fun _ => takeI16Vec_simulates.bind fun _ =>
    (takeCounted_simulates .value _ (takeSized_simulates _)).bind fun _ =>
      takeI16_simulates.bind fun _ => finish_simulates _).run'

theorem decodeCstrBody_computes : Computes decodeCstrBody PgProto.decodeCstrBody :=
  (takeCstr_simulates.bind fun _ => finish_simulates _).run'

theorem requireEmpty_computes : Computes requireEmpty decodeEmpty := requireEmpty_simulates.run'

theorem body_computes : Computes body .ok := fun _ => ⟨Buffered.grows_of_eq rfl, rfl⟩

theorem decodeFrontend_computes (tag : UInt8) :
    Computes (decodeFrontend tag) fun body => Frontend.decode ⟨tag, body⟩ := by
  show Computes _ (dispatch (fun tag => .error (unknownTag "frontend" tag)) Frontend.arms tag)
  refine select_dispatch (P := Computes) ?_ ?_
  · exact fun _ => bounded_fail rfl
  · simp only [frontendArms, Frontend.arms, List.forall₂_cons, true_and, List.Forall₂.nil, and_true]
    exact ⟨decodeParse_computes.map _, decodeBind_computes.map _, decodeDescribe_computes.map _,
      decodeClose_computes.map _, decodeExecute_computes.map _, decodeFunctionCall_computes.map _,
      requireEmpty_computes.map _, decodeCstrBody_computes.map _, requireEmpty_computes.map _,
      requireEmpty_computes.map _, requireEmpty_computes.map _, body_computes.map _,
      decodeCstrBody_computes.map _, body_computes.map _⟩

/-! ## Backend decoders -/

theorem takeRest_simulates : Simulates takeRest PgProto.takeRest :=
  simulates_length_bind fun _ => simulatesAt_splitTo (Nat.le_refl _)

theorem takeSalt_simulates : Simulates takeSalt PgProto.takeSalt := by
  unfold PgProto.takeSalt takeBytes
  rw [map_bind]
  refine simulates_require_bind fun s hs => bounded_splitTo_bind hs ?_
  have hlength : (s.unread.take 4).length = 4 := List.length_take_of_le hs
  rw [if_pos hlength]
  exact bounded_pure rfl

theorem mechanismLoop_eq (fuel : Nat) (mechanisms : List Bytes) :
    (do
      let mechanisms ← mechanismLoop fuel mechanisms
      require 1
      advance 1
      return mechanisms) =
    loopUntil 0 (invalid "truncated message body") (push takeCstr) fuel mechanisms := by
  induction fuel generalizing mechanisms with
  | zero => rfl
  | succ fuel ih =>
    funext s
    obtain ⟨unread, reserved⟩ := s
    cases unread with
    | nil => rfl
    | cons byte rest =>
      by_cases hbyte : byte = 0
      · subst hbyte
        rfl
      · show (ite (byte = 0) _ _ >>= _ : Buf _) _ = (ite (byte = 0) _ _ : Buf _) _
        rw [if_neg hbyte, if_neg hbyte, push, bind_assoc, bind_assoc]
        simp only [pure_bind, ih]

theorem takeMechanisms_simulates :
    Simulates takeMechanisms (takeTerminated PgProto.takeCstr) := by
  have hloop : takeMechanisms =
      readUntil 0 (invalid "truncated message body") (push takeCstr) [] := by
    unfold takeMechanisms readUntil
    simp only [mechanismLoop_eq]
  rw [hloop]
  exact simulates_readUntil takeCstr_simulates.push
    (consumes_of_rounds takeCstr_inverts.rounds fun _ _ => putCstrOr_ne_nil) []

def takeDiagnosticField : Buf DiagnosticField := do
  let code ← takeU8
  let value ← takeCstr
  return { code, value }

/-- The loop over the fields, whose codes are compared with the terminator. -/
theorem diagnosticLoop_eq (fuel : Nat) (fields : List DiagnosticField) :
    diagnosticLoop fuel fields =
      loopUntil 0 (invalid "truncated message body") (push takeDiagnosticField) fuel fields := by
  induction fuel generalizing fields with
  | zero => rfl
  | succ fuel ih =>
    funext s
    obtain ⟨unread, reserved⟩ := s
    cases unread with
    | nil => rfl
    | cons byte rest =>
      have hcode : UInt8.ofNat (fromBeBytes [byte]) = byte := by simp [fromBeBytes]
      show (ite (UInt8.ofNat (fromBeBytes [byte]) = 0) _ _ : Buf _) ⟨rest, reserved⟩ =
        (ite (byte = 0) _ _ : Buf _) ⟨byte :: rest, reserved⟩
      by_cases hbyte : byte = 0
      · rw [if_pos hbyte, if_pos (hcode.trans hbyte)]
        rfl
      · rw [if_neg hbyte, if_neg fun h => hbyte (hcode.symm.trans h)]
        simp only [ih, push, takeDiagnosticField, bind_assoc, pure_bind]
        rfl

theorem takeDiagnosticField_simulates :
    Simulates takeDiagnosticField PgProto.takeDiagnosticField :=
  takeU8_simulates.bind fun _ => takeCstr_simulates.bind fun _ => simulates_pure _

theorem decodeDiagnostic_computes : Computes decodeDiagnostic PgProto.decodeDiagnostic := by
  have hloop : decodeDiagnostic =
      readUntil 0 (invalid "truncated message body") (push takeDiagnosticField) [] >>=
        fun fields => requireEmpty >>= fun _ => pure { fields } := by
    unfold decodeDiagnostic readUntil
    simp only [diagnosticLoop_eq, bind_assoc]
  rw [hloop]
  refine (Simulates.bind (simulates_readUntil takeDiagnosticField_simulates.push
    (consumes_of_rounds takeDiagnosticField_inverts.rounds ?_) []) fun _ =>
      finish_simulates _).run'
  rintro field _ hword rfl
  cases DiagnosticField.word_head hword

theorem decodeAuthentication_computes :
    Computes decodeAuthentication PgProto.decodeAuthentication := by
  refine (takeU32_simulates.bind fun kind => Simulates.bind ?_ fun _ => finish_simulates _).run'
  show Simulates _ (dispatch (fun _ => .error (invalid "unknown authentication request"))
    PgProto.authenticationArms kind)
  refine select_dispatch (P := Simulates) ?_ ?_
  · exact simulates_fail _
  · simp only [authenticationArms, PgProto.authenticationArms, List.forall₂_cons, true_and,
      List.Forall₂.nil, and_true]
    exact ⟨simulates_pure _, simulates_pure _, simulates_pure _, takeSalt_simulates.map _,
      simulates_pure _, takeRest_simulates.map _, simulates_pure _, takeMechanisms_simulates.map _,
      takeRest_simulates.map _, takeRest_simulates.map _⟩

theorem decodeParameterStatus_computes :
    Computes decodeParameterStatus PgProto.decodeParameterStatus :=
  (takeCstr_simulates.bind fun _ => takeCstr_simulates.bind fun _ => finish_simulates _).run'

theorem decodeNotification_computes : Computes decodeNotification PgProto.decodeNotification :=
  (takeU32_simulates.bind fun _ => takeCstr_simulates.bind fun _ => takeCstr_simulates.bind
    fun _ => finish_simulates _).run'

theorem decodeBackendKeyData_computes :
    Computes decodeBackendKeyData PgProto.decodeBackendKeyData :=
  (takeU32_simulates.bind fun _ s =>
    (simulates_ite (simulates_pure _) (simulates_fail _) :
      Simulates (if 4 ≤ s.unread.length ∧ s.unread.length ≤ 256 then _ else _) _) s).run'

theorem decodeReady_computes : Computes decodeReady PgProto.decodeReady :=
  (Simulates.bind (takeU8_simulates.bind fun _ => simulates_ite (simulates_pure _)
    (simulates_ite (simulates_pure _) (simulates_ite (simulates_pure _) (simulates_fail _))))
    fun _ => finish_simulates _).run'

/-- The halves of a version word fit into `u16`. -/
theorem takeVersion_eq : takeVersion = splitVersion <$> takeU32 := by
  have hmajor : ∀ newest : UInt32, (newest >>> 16).toNat < 65536 := by
    intro newest
    have hlt := newest.toNat_lt
    simp only [UInt32.toNat_shiftRight, Nat.shiftRight_eq_div_pow]
    show newest.toNat / 2 ^ 16 < 65536
    omega
  have hminor : ∀ newest : UInt32, (newest &&& 0xffff).toNat < 65536 := by
    intro newest
    rw [UInt32.toNat_and]
    exact Nat.lt_succ_of_le Nat.and_le_right
  simp only [takeVersion, u16TryFrom, hmajor, hminor, if_true, pure_bind]
  rfl

theorem decodeNegotiateProtocolVersion_computes :
    Computes decodeNegotiateProtocolVersion PgProto.decodeNegotiateProtocolVersion := by
  unfold decodeNegotiateProtocolVersion
  rw [takeVersion_eq]
  exact ((takeU32_simulates.map _).bind fun _ => takeU32_simulates.bind fun count =>
    (takeItems_simulates .option _ takeCstr_simulates count.toNat).bind fun _ =>
      finish_simulates _).run'

theorem decodeDataRow_computes : Computes decodeDataRow PgProto.decodeDataRow :=
  ((takeCounted_simulates .value _ (takeSized_simulates _)).bind fun _ => finish_simulates _).run'

theorem decodeCopyResponse_computes : Computes decodeCopyResponse PgProto.decodeCopyResponse :=
  (takeU8_simulates.bind fun _ => takeI16Vec_simulates.bind fun _ => finish_simulates _).run'

theorem decodeParameterDescription_computes :
    Computes decodeParameterDescription PgProto.decodeParameterDescription :=
  ((takeCounted_simulates .typeOid _ takeU32_simulates).bind fun _ => finish_simulates _).run'

theorem takeFieldDescription_simulates :
    Simulates takeFieldDescription PgProto.takeFieldDescription :=
  takeCstr_simulates.bind fun _ => takeU32_simulates.bind fun _ => takeI16_simulates.bind fun _ =>
    takeU32_simulates.bind fun _ => takeI16_simulates.bind fun _ => takeI32_simulates.bind fun _ =>
      takeI16_simulates.bind fun _ => simulates_pure _

theorem decodeRowDescription_computes :
    Computes decodeRowDescription PgProto.decodeRowDescription :=
  ((takeCounted_simulates .field _ takeFieldDescription_simulates).bind
    fun _ => finish_simulates _).run'

theorem decodeBackend_computes (tag : UInt8) :
    Computes (decodeBackend tag) fun body => Backend.decode ⟨tag, body⟩ := by
  show Computes _ (dispatch (fun tag => .error (unknownTag "backend" tag)) Backend.arms tag)
  refine select_dispatch (P := Computes) ?_ ?_
  · exact fun _ => bounded_fail rfl
  · simp only [backendArms, Backend.arms, List.forall₂_cons, true_and, List.Forall₂.nil, and_true]
    exact ⟨requireEmpty_computes.map _, requireEmpty_computes.map _, requireEmpty_computes.map _,
      decodeCstrBody_computes.map _, requireEmpty_computes.map _, body_computes.map _,
      decodeDataRow_computes.map _, decodeDiagnostic_computes.map _,
      decodeCopyResponse_computes.map _, decodeCopyResponse_computes.map _,
      requireEmpty_computes.map _, requireEmpty_computes.map _, requireEmpty_computes.map _,
      decodeParameterDescription_computes.map _, decodeRowDescription_computes.map _,
      body_computes.map _, decodeCopyResponse_computes.map _, decodeAuthentication_computes.map _,
      decodeParameterStatus_computes, decodeDiagnostic_computes.map _, decodeNotification_computes,
      decodeBackendKeyData_computes, decodeReady_computes,
      decodeNegotiateProtocolVersion_computes⟩

/-! ## Startup packets -/

theorem simulatesAt_of_require {r : Take α} {s : Buffered Item UInt8} (hn : n ≤ s.unread.length)
    (h : Simulates (require n >>= fun _ => c) r) : SimulatesAt Item.minimumLen c r s := by
  have hrequire : (require n >>= fun _ => c) s = c s := by
    show (ite (s.unread.length < n) _ _ >>= _ : Buf _) s = _
    rw [if_neg (Nat.not_lt.2 hn)]
    rfl
  exact (Fallible.wp_congr hrequire).1 (h s)

theorem takeParameter_simulates (parameters : SortedMap Bytes Bytes) :
    Simulates (takeParameter parameters) (StartupMessage.takeParameter parameters) := by
  refine (takeCstrOr_simulates _).bind fun name => (takeCstrOr_simulates _).bind fun value => ?_
  cases parameters.insertNew (name, value) with
  | none => exact simulates_fail _
  | some parameters => exact simulates_pure _

theorem requireEnd_simulates (a : α) :
    Simulates (requireEnd >>= fun _ => pure a) (do
      unless (← get).isEmpty do
        throw (invalid "startup packet has trailing bytes")
      return a) := by
  rintro ⟨unread, reserved⟩
  cases unread with
  | nil => exact ⟨Buffered.grows_of_eq rfl, rfl⟩
  | cons byte rest => exact ⟨Buffered.grows_of_eq rfl, _, rfl, rfl⟩

/-- The length of a packet is the only sum, and a buffer has room for it. -/
theorem decodeStartup_computesAt {s : Buffered Item UInt8} (hs : s.unread.length + 4 ≤ usizeMax) :
    ComputesAt Item.minimumLen decodeStartup StartupMessage.decode s := by
  unfold ComputesAt decodeStartup StartupMessage.decode
  refine bounded_length (bounded_ite (fun hshort => ?_) fun hlong => ?_)
  · exact bounded_fail (if_pos hshort)
  rw [if_neg hlong]
  refine SimulatesAt.run' (SimulatesAt.bind (simulatesAt_of_require (by omega) takeU32_simulates)
    fun declared s₁ h₁ => ?_)
  have hlength : s.unread.length = 4 + s₁.unread.length := by
    obtain ⟨_, ⟨⟩, hword⟩ := takeU32_inverts.run_iff.1 h₁
    rw [hword, List.length_append]
    rfl
  unfold SimulatesAt requireDeclared
  rw [Reader.run_get_bind]
  simp only [bind_assoc]
  refine bounded_length (bounded_checkedAdd_bind (by omega) ?_)
  by_cases hdeclared : declared.toNat = s₁.unread.length + 4
  · simp only [ne_eq, hdeclared, not_true_eq_false, if_false, pure_bind]
    refine SimulatesAt.bind (simulatesAt_of_require (by omega) takeU16_simulates)
      fun major s₂ h₂ => SimulatesAt.bind (simulatesAt_of_require ?_ takeU16_simulates)
        fun minor s₃ _ => ?_
    · obtain ⟨_, ⟨⟩, hword⟩ := takeU16_inverts.run_iff.1 h₂
      have hlength₂ : s₁.unread.length = 2 + s₂.unread.length := by
        rw [hword, List.length_append]
        rfl
      omega
    · exact Simulates.bind (simulates_readUntil takeParameter_simulates
        (consumes_of_rounds takeParameter_rounds fun _ _ => putParameter_ne_nil) _)
        (fun _ => requireEnd_simulates _) s₃
  · simp only [ne_eq, hdeclared, not_false_eq_true, if_true]
    exact bounded_fail rfl

section PreStartup

variable {E : IoError → Prop} {s : Buffered Item UInt8}

theorem bounded_indexU32_bind {β : Type} {packet : Bytes} {position : Nat}
    {f : UInt32 → Buf β} {R : β → Buffered Item UInt8 → Prop} (h : position + 4 ≤ packet.length)
    (hrest : Bounded Item.minimumLen (f (PreStartupMessage.wordAt position packet)) E R s) :
    Bounded Item.minimumLen (indexU32 packet position >>= f) E R s := by
  have hword : (packet.drop position).take 4 = [packet[position], packet[position + 1],
      packet[position + 2], packet[position + 3]] := by
    apply List.ext_getElem?
    intro i
    rcases i with _ | _ | _ | _ | i <;> simp
  unfold PreStartupMessage.wordAt at hrest
  rw [hword] at hrest
  unfold indexU32
  simp only [bind_assoc]
  exact bounded_index_bind (List.getElem?_eq_getElem _) (bounded_index_bind
    (List.getElem?_eq_getElem _) (bounded_index_bind (List.getElem?_eq_getElem _)
      (bounded_index_bind (List.getElem?_eq_getElem _) hrest)))

theorem ofPacket_bounded {packet : Bytes} (hlong : 8 ≤ packet.length)
    (hfits : packet.length + 4 ≤ usizeMax) :
    Bounded Item.minimumLen (ofPacket packet)
      (fun e => PreStartupMessage.ofPacket packet = .error e)
      (fun message _ => PreStartupMessage.ofPacket packet = .ok message) s := by
  unfold ofPacket PreStartupMessage.ofPacket
  refine bounded_indexU32_bind hlong ?_
  dsimp only
  split_ifs with hssl hgss hcancel hkey
  · exact bounded_pure rfl
  · exact bounded_pure rfl
  · have hslice : ¬ packet.length < 12 := by omega
    refine bounded_indexU32_bind (by omega) ?_
    rw [sliceFrom, if_neg hslice]
    exact bounded_pure rfl
  · exact bounded_fail rfl
  · exact Bounded.map (bounded_within (Bounded.mono (decodeStartup_computesAt hfits)
      (fun _ => congrArg (PreStartupMessage.startup <$> ·))
      fun _ _ => congrArg (PreStartupMessage.startup <$> ·)))

theorem takePacket_bounded {maxPacketLen : Nat} (hlimit : 8 ≤ maxPacketLen ∧ maxPacketLen ≤ i32Max)
    (hlong : 4 ≤ s.unread.length) :
    ComputesAt Item.minimumLen (takePacket maxPacketLen)
      (fun input => (PgProto.decodePreStartupWithLimit input maxPacketLen).result) s := by
  have hword : (PreStartupMessage.wordAt 0 s.unread).toNat = fromBeBytes (s.unread.take 4) := by
    rw [PreStartupMessage.wordAt, List.drop_zero, ← fromBeBytes_putU32,
      putU32_ofNat_fromBeBytes (List.length_take_of_le hlong)]
  unfold ComputesAt takePacket PgProto.decodePreStartupWithLimit
  show Bounded _ (indexU32 s.unread 0 >>= _) _ _ s
  refine bounded_indexU32_bind hlong ?_
  rw [hword]
  simp only [hlimit, not_true_eq_false, if_false, if_neg (Nat.not_lt.2 hlong), and_self]
  generalize fromBeBytes (s.unread.take 4) = length
  split_ifs with hmin hi32 hmax hwait
  · exact bounded_fail rfl
  · exact bounded_fail rfl
  · exact bounded_fail rfl
  · refine bounded_length ?_
    rw [if_pos hwait]
    exact bounded_length (bounded_checkedSub_bind (Nat.le_of_lt hwait) (bounded_pure rfl))
  · refine bounded_length ?_
    rw [if_neg hwait]
    have hle : length ≤ s.unread.length := Nat.not_lt.1 hwait
    have hlength : (s.unread.take length).length = length := List.length_take_of_le hle
    have hfits : (s.unread.take length).length + 4 ≤ usizeMax := by
      rw [hlength]
      unfold i32Max at hi32
      unfold usizeMax
      omega
    refine bounded_splitTo_bind hle (Bounded.map (Bounded.mono (ofPacket_bounded (by omega) hfits)
      (fun _ => congrArg (some <$> ·)) fun _ _ => congrArg (some <$> ·)))

theorem decodePreStartupWithLimit_computes (maxPacketLen : Nat) :
    Computes (decodePreStartupWithLimit maxPacketLen) fun input =>
      (PgProto.decodePreStartupWithLimit input maxPacketLen).result := by
  intro s
  refine bounded_ite (fun hlimit => bounded_fail ?_) fun hlimit => bounded_length
    (bounded_ite (fun hshort => bounded_length
      (bounded_checkedSub_bind (Nat.le_of_lt hshort) (bounded_pure ?_)))
      fun hlong => takePacket_bounded (not_not.1 hlimit) (Nat.not_lt.1 hlong))
  · simp only [PgProto.decodePreStartupWithLimit, if_pos hlimit]
    rfl
  · simp only [PgProto.decodePreStartupWithLimit, if_neg hlimit, if_pos hshort]
    rfl

end PreStartup

/-! ## Replication payloads -/

section Replication

variable {E : IoError → Prop} {s : Buffered Item UInt8} {n : Nat}

/-- The decoder neither panics nor reserves what does not fit. -/
abbrev SafeAt (c : Buf α) (s : Buffered Item UInt8) : Prop :=
  Bounded Item.minimumLen c (fun _ => True) (fun _ _ => True) s

/-- A decoder which takes this many bytes. -/
abbrev TakesAt (n : Nat) (c : Buf α) (s : Buffered Item UInt8) : Prop :=
  Bounded Item.minimumLen c (fun _ => True) (fun _ s' => s'.unread.length = s.unread.length - n) s

theorem getWord_takes {ofNat : Nat → α} (hn : n ≤ s.unread.length) :
    TakesAt n (getWord n ofNat) s :=
  Bounded.map (bounded_splitTo hn List.length_drop)

theorem getI64_takes (hn : 8 ≤ s.unread.length) : TakesAt 8 getI64 s := (getWord_takes hn).map

theorem body_safe : SafeAt body s := ⟨Buffered.grows_of_eq rfl, trivial⟩

theorem takeBool_safe (value : UInt8) : SafeAt (takeBool value) s :=
  bounded_ite (fun _ => bounded_pure trivial) fun _ =>
    bounded_ite (fun _ => bounded_pure trivial) fun _ => bounded_fail trivial

theorem takeTag_safe : SafeAt takeTag s :=
  bounded_length (bounded_ite (fun _ => bounded_fail trivial) fun hn =>
    (getWord_takes (Nat.pos_of_ne_zero hn)).mono (fun _ => id) fun _ _ _ => trivial)

theorem requireFor_safe {message : String} {rest : Buf α}
    (h : n ≤ s.unread.length → SafeAt rest s) : SafeAt (requireFor n message rest) s :=
  bounded_length (bounded_ite (fun _ => bounded_fail trivial) fun hn => h (Nat.not_lt.1 hn))

theorem requireExactFor_safe {message : String} {rest : Buf α}
    (h : s.unread.length = n → SafeAt rest s) : SafeAt (requireExactFor n message rest) s :=
  bounded_length (bounded_ite h fun _ => bounded_fail trivial)

theorem decodeBackendReplication_safe : SafeAt decodeBackendReplication s := by
  refine takeTag_safe.bind fun _ s _ => bounded_ite (fun _ => requireFor_safe fun hn => ?_)
    fun _ => bounded_ite (fun _ => requireExactFor_safe fun hn => ?_) fun _ => body_safe.map
  · exact (getWord_takes (by omega)).bind fun _ s₁ h₁ => (getWord_takes (by omega)).bind
      fun _ s₂ h₂ => (getI64_takes (by omega)).bind fun _ _ _ => body_safe.bind
        fun _ _ _ => bounded_pure trivial
  · exact (getWord_takes (by omega)).bind fun _ s₁ h₁ => (getI64_takes (by omega)).bind
      fun _ s₂ h₂ => (getWord_takes (by omega)).bind fun _ _ _ => (takeBool_safe _).bind
        fun _ _ _ => bounded_pure trivial

theorem decodeFrontendReplication_safe : SafeAt decodeFrontendReplication s := by
  refine takeTag_safe.bind fun _ s _ => bounded_ite (fun _ => requireExactFor_safe fun hn => ?_)
    fun _ => bounded_ite (fun _ => requireExactFor_safe fun hn => ?_) fun _ => body_safe.map
  · exact (getWord_takes (by omega)).bind fun _ s₁ h₁ => (getWord_takes (by omega)).bind
      fun _ s₂ h₂ => (getWord_takes (by omega)).bind fun _ s₃ h₃ => (getI64_takes (by omega)).bind
        fun _ s₄ h₄ => (getWord_takes (by omega)).bind fun _ _ _ => (takeBool_safe _).bind
          fun _ _ _ => bounded_pure trivial
  · exact (getI64_takes (by omega)).bind fun _ s₁ h₁ => (getWord_takes (by omega)).bind
      fun _ s₂ h₂ => (getWord_takes (by omega)).bind fun _ s₃ h₃ => (getWord_takes (by omega)).bind
        fun _ s₄ h₄ => (getWord_takes (by omega)).bind fun _ _ _ => bounded_pure trivial

end Replication

/-! ## All decoders -/

/-- `isize::MAX` of a 64-bit target, which no buffer exceeds. -/
def isizeMax : Nat := usizeMax / 2

/-- What a `Bytes` holds. -/
structure Buffer where
  bytes : Bytes
  fits : bytes.length ≤ isizeMax

/-- Room for items, each at its least encoded size, is covered by the bytes that are left. -/
def Affordable (r : Reservation Item) : Prop :=
  ∃ least, IsLeast r.item.lengths least ∧ r.capacity * least ≤ r.remaining

/-- The decoder returns or fails on the buffer, and what it reserves on the way is affordable. -/
def DecodesSafely (c : Buf α) (buffer : Buffer) : Prop :=
  match c ⟨buffer.bytes, []⟩ with
  | .ok _ s | .error (.error _) s => ∀ r ∈ s.reserved, Affordable r
  | .error .panic _ => False

/-- Whatever a decoder returns and however it fails, within its bounds it is safe. -/
theorem decodesSafely_of_bounded {E : IoError → Prop} {Q : α → Buffered Item UInt8 → Prop}
    {buffer : Buffer} (h : Bounded Item.minimumLen c E Q ⟨buffer.bytes, []⟩) :
    c.DecodesSafely buffer := by
  have hfits : ∀ s : Buffered Item UInt8, Buffered.Grows Item.minimumLen ⟨buffer.bytes, []⟩ s →
      ∀ r ∈ s.reserved, Affordable r := by
    rintro ⟨unread, _⟩ ⟨more, rfl, hmore⟩ r hr
    exact ⟨_, r.item.minimumLen_isLeast, hmore r hr⟩
  unfold Bounded Fallible.wp at h
  unfold DecodesSafely
  cases hc : c ⟨buffer.bytes, []⟩ with
  | ok a s =>
    rw [hc] at h
    exact hfits s h.1
  | error fault s =>
    rw [hc] at h
    obtain ⟨hgrows, e, rfl, -⟩ := h
    exact hfits s hgrows

/-- Every decoder, on every body: it returns or fails without a read, an advance or a sum out of
range, and the room it reserves from a count is at most what the bytes that are left could fill. -/
theorem decoders_safe (tag : UInt8) (buffer : Buffer) (maxPacketLen : Nat) :
    (decodeFrontend tag).DecodesSafely buffer ∧ (decodeBackend tag).DecodesSafely buffer ∧
      (decodePreStartupWithLimit maxPacketLen).DecodesSafely buffer ∧
      decodeStartup.DecodesSafely buffer ∧ decodeBackendReplication.DecodesSafely buffer ∧
      decodeFrontendReplication.DecodesSafely buffer := by
  have hfits : buffer.bytes.length + 4 ≤ usizeMax := by
    have hle := buffer.fits
    unfold isizeMax usizeMax at *
    omega
  exact ⟨decodesSafely_of_bounded (decodeFrontend_computes tag _),
    decodesSafely_of_bounded (decodeBackend_computes tag _),
    decodesSafely_of_bounded (decodePreStartupWithLimit_computes _ _),
    decodesSafely_of_bounded (decodeStartup_computesAt hfits),
    decodesSafely_of_bounded decodeBackendReplication_safe,
    decodesSafely_of_bounded decodeFrontendReplication_safe⟩

end Buf
end PgProto
