import PgProto.Lib.Base64
import PgProto.Lib.Sha256
import PgProto.Scram.Server

/-!
# Verification — what a completed SCRAM exchange proves

The exchange of `Server` against the client of RFC 5802, which is written out here as `clientFirst`
and `clientFinal`: it reads the nonce, the salt and the iteration count from the message of the
server.

`scram_verification` has two halves.  A client with the right password is accepted, and gets the
signature of the server for the message it signed itself.  Whoever is accepted has sent the nonce of
the server, the channel binding of the connection and, as the last attribute, a proof for the
password, over exactly the three messages which were exchanged.
-/

namespace PgProto
namespace Scram

open Lib
open ScramServer

/-! ## The client -/

/-- `saslname`: the comma and the equals sign are written as `=2C` and `=3D`. -/
def escape (c : Char) : List Char :=
  if c = ',' then ['=', '2', 'C'] else if c = '=' then ['=', '3', 'D'] else [c]

def saslname (user : String) : Bytes :=
  (user.toList.flatMap escape).flatMap String.utf8EncodeChar

/-- `client-first-message-bare`. -/
def clientFirstBare (user : String) (nonce : Bytes) : Bytes :=
  ascii "n=" ++ saslname user ++ ascii ",r=" ++ nonce

def parseDecimal (digits : Bytes) : UInt32 :=
  UInt32.ofNat (Nat.ofDigitChars 10 (digits.map fun b => Char.ofNat b.toNat) 0)

/-- What the client sends at the end, with the message it has signed and its salted password. -/
structure ClientFinal where
  text : Bytes
  authMessage : Bytes
  saltedPassword : Bytes

/-- `client-final-message`, from what the client knows and what the server has sent. -/
def clientFinal (P : Primitives) (password gs2Header bindingData bare nonce serverFirst : Bytes) :
    Except Error ClientFinal := do
  let attributes ← attributes serverFirst
  let combinedNonce ← required attributes 0x72
  ensure (nonce <+: combinedNonce) (.invalid "server nonce")
  let encodedSalt ← required attributes 0x73
  let salt ← ofOption .base64 (P.decode encodedSalt)
  let iterations ← required attributes 0x69
  let saltedPassword := hi P (normalize P password) salt (parseDecimal iterations)
  let withoutProof :=
    ascii "c=" ++ P.encode (gs2Header ++ bindingData) ++ ascii ",r=" ++
      combinedNonce
  let authMessage := authMessage bare serverFirst withoutProof
  let clientKey := P.hmac saltedPassword clientKeyText
  let clientSignature := P.hmac (P.sha256 clientKey) authMessage
  let proof := xor clientKey clientSignature
  return { text := withoutProof ++ ascii ",p=" ++ P.encode proof
           authMessage, saltedPassword }

/-- The GS2 headers without authorization identity which a mechanism and a transport allow, with
the binding data that goes with them. -/
inductive Allowed : Bytes → ServerChannelBinding → Bytes → Bytes → Prop
  | plus (binding : Bytes) :
      Allowed scramSha256Plus (.tlsServerEndPoint binding) gs2EndPoint binding
  | none (channelBinding : ServerChannelBinding) : Allowed scramSha256 channelBinding gs2None []
  | unused : Allowed scramSha256 .none gs2Unused []

/-! ## Texts -/

theorem isText_ascii {text : String} (h : (text.toList.all fun c => c.toNat < 128) = true) :
    IsText (ascii text) := by
  apply isText_of_ascii
  intro b hb
  obtain ⟨c, hc, rfl⟩ := List.mem_map.1 hb
  have hlt : c.toNat < 128 := of_decide_eq_true (List.all_eq_true.1 h c hc)
  show (UInt8.ofNat c.toNat).toNat < 128
  rw [UInt8.toNat_ofNat_of_lt' (show c.toNat < 256 by omega)]
  exact hlt

theorem comma_notMem_escape {c : Char} : ',' ∉ escape c := by
  unfold escape
  split_ifs with hcomma hequals
  · decide
  · decide
  · simpa using fun h => hcomma h.symm

theorem comma_notMem_saslname (user : String) : comma ∉ saslname user := by
  intro hmem
  obtain ⟨c, hc, hbyte⟩ := List.mem_flatMap.1 hmem
  obtain ⟨d, -, hd⟩ := List.mem_flatMap.1 hc
  have hcode : c.toNat = 0x2c := eq_ofNat_of_mem_utf8EncodeChar hbyte (by decide)
  have hcomma : c = ',' := by
    have hback := congrArg Char.ofNat hcode
    rw [Char.ofNat_toNat] at hback
    exact hback
  rw [hcomma] at hd
  exact comma_notMem_escape hd

theorem Primitives.comma_notMem_encode (P : Primitives) (bytes : Bytes) : comma ∉ P.encode bytes :=
  fun h => (P.encode_ascii bytes comma h).2 rfl

theorem Primitives.isText_encode (P : Primitives) (bytes : Bytes) : IsText (P.encode bytes) :=
  isText_of_ascii fun b hb => (P.encode_ascii bytes b hb).1

theorem isNonceByte_iff {b : UInt8} :
    isNonceByte b = true ↔ 0x21 ≤ b ∧ b < 0x7f ∧ b ≠ comma := by
  have hcomma : b = comma ↔ b.toNat = 44 := UInt8.toNat_inj.symm
  simp only [isNonceByte, Bool.or_eq_true, Bool.and_eq_true, decide_eq_true_eq,
    UInt8.le_iff_toNat_le, UInt8.lt_iff_toNat_lt, ne_eq, hcomma]
  simp only [UInt8.reduceToNat]
  omega

variable {nonce mechanism gs2Header data : Bytes} {server : ScramServer}
  {channelBinding : ServerChannelBinding} {P : Primitives}

theorem validateNonce_eq_ok {u : Unit} :
    validateNonce nonce = .ok u ↔ nonce ≠ [] ∧ ∀ b ∈ nonce, isNonceByte b = true := by
  unfold validateNonce
  split_ifs with h
  · simpa using h
  · simpa using h

theorem randomNonce_bytes (draws : Draws) : ∀ b ∈ randomNonce draws, isNonceByte b = true := by
  intro b hb
  obtain ⟨d, hd, rfl⟩ := List.mem_map.1 hb
  obtain ⟨hlow, hhigh⟩ := draws.range d hd
  split_ifs with hcomma
  · decide
  · exact isNonceByte_iff.2 ⟨hlow, hhigh, hcomma⟩

theorem toList_repr (n : Nat) : n.repr.toList = Nat.toDigits 10 n := String.toList_ofList

theorem code_of_mem_repr {n : Nat} {c : Char} (hc : c ∈ n.repr.toList) :
    48 ≤ c.toNat ∧ c.toNat ≤ 57 := by
  rw [toList_repr] at hc
  have hdigit : c.isDigit = true := Nat.isDigit_of_mem_toDigits (by decide) (by decide) hc
  simpa [Char.isDigit, UInt32.le_iff_toNat_le] using hdigit

theorem decimal_ascii (n : Nat) : ∀ b ∈ decimal n, b < 0x80 ∧ b ≠ comma := by
  intro b hb
  obtain ⟨c, hc, rfl⟩ := List.mem_map.1 hb
  obtain ⟨hlow, hhigh⟩ := code_of_mem_repr hc
  have hbyte : (UInt8.ofNat c.toNat).toNat = c.toNat :=
    UInt8.toNat_ofNat_of_lt' (show c.toNat < 256 by omega)
  constructor
  · show (UInt8.ofNat c.toNat).toNat < 128
    omega
  · intro hcomma
    have hnat : (UInt8.ofNat c.toNat).toNat = 44 := congrArg UInt8.toNat hcomma
    omega

theorem parseDecimal_decimal (n : UInt32) : parseDecimal (decimal n.toNat) = n := by
  have hback : (decimal n.toNat).map (fun b => Char.ofNat b.toNat) = Nat.toDigits 10 n.toNat := by
    rw [decimal, ascii, List.map_map, ← toList_repr]
    refine (List.map_congr_left ?_).trans (List.map_id _)
    intro c hc
    have hcode := code_of_mem_repr hc
    show Char.ofNat (UInt8.ofNat c.toNat).toNat = c
    rw [UInt8.toNat_ofNat_of_lt' (show c.toNat < 256 by omega), Char.ofNat_toNat]
  rw [parseDecimal, hback, Nat.ofDigitChars_ten_toDigits, UInt32.ofNat_toNat]

/-! ## Messages as attributes -/

theorem clientFirstBare_eq_join (user : String) (nonce : Bytes) :
    clientFirstBare user nonce = join [(0x6e, saslname user), (0x72, nonce)] := by
  simp [clientFirstBare, join, render, ascii, comma, equalsSign, List.intercalate]

theorem firstMessage_eq_join (P : Primitives) (server : ScramServer) (nonce : Bytes) :
    server.firstMessage P nonce =
      join [(0x72, nonce), (0x73, P.encode server.salt),
        (0x69, decimal server.iterations.toNat)] := by
  simp [ScramServer.firstMessage, join, render, ascii, comma, equalsSign, List.intercalate]

/-! ## The proof is the last attribute -/

/-- The last attribute of a message, found by its marker and its length. -/
theorem WellFormed.last_attribute {found : List Attribute} {value : Bytes} {marker : Nat}
    (hwf : WellFormed found) (hmarker : rfind proofMarker (join found) = some marker)
    (hmem : (0x70, value) ∈ found) (hlast : marker + 3 + value.length = (join found).length) :
    ∃ earlier, found = earlier ++ [(0x70, value)] ∧ (join found).take marker = join earlier := by
  obtain ⟨before, after, hmessage, rfl⟩ := rfind_eq_some hmarker
  -- the marker separates two fields, and the second one starts with `p=`
  have hsplit : found.map render =
      before.splitOn comma ++ (0x70 :: equalsSign :: after).splitOn comma := by
    rw [← hwf.splitOn_join, hmessage]
    exact List.splitOn_append_cons_self _ _
  obtain ⟨first, rest, hafter⟩ :=
    List.exists_cons_of_ne_nil (List.splitOn_ne_nil comma after)
  have hproof : (0x70 :: equalsSign :: after).splitOn comma =
      (0x70 :: equalsSign :: first) :: rest := by
    have hp : ((0x70 : UInt8) == comma) = false := rfl
    have heq : (equalsSign == comma) = false := rfl
    simp only [List.splitOn_cons_eq_if_modifyHead, hp, heq, hafter, Bool.false_eq_true, if_false,
      List.modifyHead_cons]
  rw [hproof] at hsplit
  obtain ⟨earlier, later, rfl, hearlier, hlater⟩ := List.map_eq_append_iff.1 hsplit
  obtain ⟨⟨letter, text⟩, tail, rfl, hrender, htail⟩ := List.map_eq_cons_iff.1 hlater
  simp only [render, List.cons.injEq, true_and] at hrender
  obtain ⟨rfl, rfl⟩ := hrender
  -- letters are distinct, so that field is the attribute
  obtain rfl : value = text := by
    have h₁ := (required_eq_ok hwf.distinct).2 hmem
    have h₂ := (required_eq_ok hwf.distinct).2
      (show ((0x70 : UInt8), text) ∈ earlier ++ (0x70, text) :: tail by simp)
    rw [h₁] at h₂
    exact Except.ok.inj h₂
  have hlength : after.length = value.length := by
    have hmarker : proofMarker.length = 3 := by simp [proofMarker, ascii]
    rw [hmessage] at hlast
    simp only [List.length_append, hmarker] at hlast
    omega
  have hjoined : after = [comma].intercalate (value :: rest) := by
    rw [← hafter, List.intercalate_splitOn]
  have hnone : rest = [] := by
    cases rest with
    | nil => rfl
    | cons field rest =>
      rw [hjoined] at hlength
      simp [List.intercalate] at hlength
  subst hnone
  obtain rfl : tail = [] := List.map_eq_nil_iff.1 htail
  refine ⟨earlier, rfl, ?_⟩
  rw [hmessage, List.take_left, join, hearlier, List.intercalate_splitOn]

/-! ## Channel binding -/

/-- The server accepts exactly the allowed headers, and expects them with their binding data. -/
theorem expectedBinding_eq_ok {expected : Bytes} :
    (∃ plus, plusOf mechanism = .ok plus ∧
      server.expectedBinding plus gs2Header = .ok expected) ↔
    ∃ data, Allowed mechanism server.channelBinding gs2Header data ∧
      expected = gs2Header ++ data := by
  constructor
  · rintro ⟨plus, hplus, hexpected⟩
    unfold plusOf at hplus
    split_ifs at hplus with hplain hbound
    · cases hplus
      subst hplain
      cases hbinding : server.channelBinding with
      | none =>
        simp only [expectedBinding, hbinding] at hexpected
        split_ifs at hexpected with hheader
        cases hexpected
        rcases hheader with rfl | rfl
        · exact ⟨[], .none _, by simp⟩
        · exact ⟨[], .unused, by simp⟩
      | tlsServerEndPoint binding =>
        simp only [expectedBinding, hbinding] at hexpected
        -- A client that takes the server to offer no binding was downgraded.
        split_ifs at hexpected with hdowngrade hheader
        cases hexpected
        subst hheader
        exact ⟨[], .none _, by simp⟩
    · cases hplus
      subst hbound
      cases hbinding : server.channelBinding with
      | none => simp [expectedBinding, hbinding] at hexpected
      | tlsServerEndPoint binding =>
        simp only [expectedBinding, hbinding] at hexpected
        split_ifs at hexpected with hheader
        cases hexpected
        subst hheader
        exact ⟨binding, .plus binding, rfl⟩
  · rintro ⟨data, hallowed, rfl⟩
    generalize hbinding : server.channelBinding = channelBinding at hallowed
    cases hallowed with
    | plus =>
      refine ⟨true, by decide, ?_⟩
      simp [expectedBinding, hbinding]
    | none =>
      refine ⟨false, by decide, ?_⟩
      have hne : gs2None ≠ gs2Unused := by decide
      cases channelBinding <;> simp [expectedBinding, hbinding, hne]
    | unused =>
      refine ⟨false, by decide, ?_⟩
      simp [expectedBinding, hbinding]

theorem Allowed.splitGs2_append (hallowed : Allowed mechanism channelBinding gs2Header data)
    (bare : Bytes) : splitGs2 (gs2Header ++ bare) = .ok (gs2Header, bare) := by
  cases hallowed with
  | plus =>
    exact Scram.splitGs2_append (x := gs2EndPoint.take 22) (y := []) (by decide) (by decide)
  | none => exact Scram.splitGs2_append (x := ascii "n") (y := []) (by decide) (by decide)
  | unused => exact Scram.splitGs2_append (x := ascii "y") (y := []) (by decide) (by decide)

theorem Allowed.isText (hallowed : Allowed mechanism channelBinding gs2Header data) :
    IsText gs2Header := by
  cases hallowed <;> exact isText_ascii rfl

/-! ## Whoever is accepted -/

/-- What the three messages of an accepted exchange have in common. -/
theorem ScramExchange.sound {draws : Draws} {clientFirst serverFirst clientFinal verifier : Bytes}
    {exchange : ScramExchange}
    (hstart : server.start P draws mechanism clientFirst = .ok (exchange, serverFirst))
    (hfinish : exchange.finish P clientFinal = .ok verifier) :
    ∃ gs2Header bare nonce data encodedBinding earlier encodedProof proof,
      splitGs2 clientFirst = .ok (gs2Header, bare) ∧
      serverFirst = server.firstMessage P nonce ∧ randomNonce draws <:+ nonce ∧
      Allowed mechanism server.channelBinding gs2Header data ∧
      WellFormed (earlier ++ [(0x70, encodedProof)]) ∧
      clientFinal = join (earlier ++ [(0x70, encodedProof)]) ∧
      (0x72, nonce) ∈ earlier ∧
      (0x63, encodedBinding) ∈ earlier ∧ P.decode encodedBinding = some (gs2Header ++ data) ∧
      P.decode encodedProof = some proof ∧ proof.length = 32 ∧
      let saltedPassword := hi P server.password server.salt server.iterations
      let message := authMessage bare serverFirst (join earlier)
      P.sha256 (xor proof (P.hmac (storedKey P saltedPassword) message)) =
        storedKey P saltedPassword ∧
      verifier = serverFinal P saltedPassword message := by
  obtain ⟨-, gs2Header, bare, plus, expected, -, nonce, -, hsplit, hplus, hexpected, -, -, -, -, -,
    hfirst, rfl⟩ := start_eq_ok.1 hstart
  obtain ⟨-, marker, found, encodedBinding, encodedProof, proof, hmarker, hfound, -, hnonce, hbinding,
    hdecode, hproof, hlast, hdecoded, hlength, hkey, rfl⟩ := ScramExchange.finish_eq_ok.1 hfinish
  obtain ⟨data, hallowed, rfl⟩ := expectedBinding_eq_ok.1 ⟨plus, hplus, hexpected⟩
  obtain ⟨hwf, rfl⟩ := attributes_eq_ok_iff.1 hfound
  rw [required_eq_ok hwf.distinct] at hnonce hbinding hproof
  obtain ⟨earlier, rfl, htake⟩ := hwf.last_attribute hmarker hproof hlast
  rw [htake] at hkey ⊢
  refine ⟨gs2Header, bare, _, data, encodedBinding, earlier, encodedProof, proof, hsplit, hfirst,
    List.suffix_append _ _, hallowed, hwf, rfl, ?_, ?_, hdecode, hdecoded, hlength, hkey, rfl⟩
  · simpa using hnonce
  · simpa using hbinding

/-! ## A client with the right password -/

theorem xor_length {a b : Bytes} (h : a.length = b.length) : (xor a b).length = a.length := by
  simp [xor, h]

theorem xor_cancel {a b : Bytes} (h : a.length = b.length) : xor (xor a b) b = a := by
  induction a generalizing b with
  | nil => cases b <;> rfl
  | cons x a ih =>
    cases b with
    | nil => cases h
    | cons y b =>
      have hrest : xor (xor a b) b = a := ih (Nat.succ.inj h)
      have hbyte : x ^^^ y ^^^ y = x := by rw [UInt8.xor_assoc, UInt8.xor_self, UInt8.xor_zero]
      show (x ^^^ y ^^^ y) :: xor (xor a b) b = x :: a
      rw [hbyte, hrest]

theorem nonceBytes_plain (h : ∀ b ∈ nonce, isNonceByte b = true) :
    comma ∉ nonce ∧ IsText nonce := by
  constructor
  · intro hmem
    exact (isNonceByte_iff.1 (h _ hmem)).2.2 rfl
  · apply isText_of_ascii
    intro b hb
    have hlt := (isNonceByte_iff.1 (h b hb)).2.1
    exact UInt8.lt_trans hlt (by decide)

/-- The first message of the client is read as its user name and its nonce. -/
theorem attributes_clientFirstBare (user : String) (hplain : comma ∉ nonce) :
    attributes (clientFirstBare user nonce) = .ok [(0x6e, saslname user), (0x72, nonce)] := by
  rw [attributes_eq_ok_iff, clientFirstBare_eq_join]
  refine ⟨⟨by simp, ?_, by simp, ?_⟩, rfl⟩
  · simp only [List.mem_cons, List.not_mem_nil, or_false, forall_eq_or_imp, forall_eq]
    decide
  · simpa using ⟨comma_notMem_saslname user, hplain⟩

theorem attributes_firstMessage (P : Primitives) (server : ScramServer) (hplain : comma ∉ nonce) :
    attributes (server.firstMessage P nonce) =
      .ok [(0x72, nonce), (0x73, P.encode server.salt),
        (0x69, decimal server.iterations.toNat)] := by
  rw [attributes_eq_ok_iff, firstMessage_eq_join]
  refine ⟨⟨by simp, ?_, by simp, ?_⟩, rfl⟩
  · simp only [List.mem_cons, List.not_mem_nil, or_false, forall_eq_or_imp, forall_eq]
    decide
  · have hdecimal : comma ∉ decimal server.iterations.toNat :=
      fun h => (decimal_ascii _ _ h).2 rfl
    simpa using ⟨hplain, P.comma_notMem_encode _, hdecimal⟩

/-- The last message of the client. -/
def finalText (binding nonce proof : Bytes) : Bytes :=
  ascii "c=" ++ binding ++ ascii ",r=" ++ nonce ++ ascii ",p=" ++ proof

theorem attributes_finalText {binding proof : Bytes} (hbinding : comma ∉ binding)
    (hnonce : comma ∉ nonce) (hproof : comma ∉ proof) :
    attributes (finalText binding nonce proof) =
      .ok [(0x63, binding), (0x72, nonce), (0x70, proof)] := by
  rw [attributes_eq_ok_iff]
  refine ⟨⟨by simp, ?_, by simp, ?_⟩, ?_⟩
  · simp only [List.mem_cons, List.not_mem_nil, or_false, forall_eq_or_imp, forall_eq]
    decide
  · simpa using ⟨hbinding, hnonce, hproof⟩
  · simp [finalText, join, render, ascii, comma, equalsSign, List.intercalate]

theorem start_accepts (hallowed : Allowed mechanism server.channelBinding gs2Header data)
    (draws : Draws) (user : String) (hnonce : validateNonce nonce = .ok ()) :
    server.start P draws mechanism (gs2Header ++ clientFirstBare user nonce) =
      .ok ({ saltedPassword := hi P server.password server.salt server.iterations
             clientFirstBare := clientFirstBare user nonce
             serverFirst := server.firstMessage P (nonce ++ randomNonce draws)
             combinedNonce := nonce ++ randomNonce draws
             expectedChannelBinding := gs2Header ++ data },
        server.firstMessage P (nonce ++ randomNonce draws)) := by
  obtain ⟨hplain, htext⟩ := nonceBytes_plain (validateNonce_eq_ok.1 hnonce).2
  have hbare : IsText (clientFirstBare user nonce) :=
    (((isText_ascii rfl).append (isText_chars _)).append
      (isText_ascii rfl)).append htext
  obtain ⟨plus, hplus, hexpected⟩ := expectedBinding_eq_ok.2 ⟨data, hallowed, rfl⟩
  refine start_eq_ok.2 ⟨(hallowed.isText.append hbare).valid, gs2Header, _, plus, _, _,
    nonce, saslname user, hallowed.splitGs2_append _, hplus, hexpected,
    attributes_clientFirstBare user hplain, ?_, ?_, hnonce, ?_, rfl, rfl⟩
  · exact rejectMandatoryExtension_eq_ok.2 (by simp)
  · exact (required_eq_ok (by simp)).2 (by simp)
  · exact (required_eq_ok (by simp)).2 (by simp)

theorem clientFinal_firstMessage (P : Primitives) (server : ScramServer)
    (password gs2Header data bare nonce : Bytes) {more : Bytes} (hplain : comma ∉ nonce ++ more)
    (hpassword : server.password = normalize P password) :
    let combinedNonce := nonce ++ more
    let saltedPassword := hi P server.password server.salt server.iterations
    let withoutProof :=
      ascii "c=" ++ P.encode (gs2Header ++ data) ++ ascii ",r=" ++ combinedNonce
    let message := authMessage bare (server.firstMessage P combinedNonce) withoutProof
    let clientKey := P.hmac saltedPassword clientKeyText
    clientFinal P password gs2Header data bare nonce (server.firstMessage P combinedNonce) =
      .ok { text := finalText (P.encode (gs2Header ++ data)) combinedNonce
              (P.encode (xor clientKey (P.hmac (P.sha256 clientKey) message)))
            authMessage := message
            saltedPassword := saltedPassword } := by
  intro combinedNonce saltedPassword withoutProof message clientKey
  simp only [clientFinal, except_bind_eq_ok, except_pure_eq_ok, ensure_eq_ok, ofOption_eq_ok,
    decide_eq_true_eq]
  refine ⟨_, attributes_firstMessage P server hplain, combinedNonce, ?_, (), List.prefix_append _ _,
    P.encode server.salt, ?_, server.salt, P.decode_encode _, decimal server.iterations.toNat, ?_, ?_⟩
  · exact (required_eq_ok (by simp)).2 (by simp [combinedNonce])
  · exact (required_eq_ok (by simp)).2 (by simp)
  · exact (required_eq_ok (by simp)).2 (by simp)
  · rw [parseDecimal_decimal, ← hpassword]
    rfl

theorem finish_accepts {exchange : ScramExchange} {clientKey : Bytes}
    (hplain : comma ∉ exchange.combinedNonce) (htext : IsText exchange.combinedNonce)
    (hkey : clientKey = P.hmac exchange.saltedPassword clientKeyText) :
    let withoutProof :=
      ascii "c=" ++ P.encode exchange.expectedChannelBinding ++ ascii ",r=" ++
        exchange.combinedNonce
    let message := authMessage exchange.clientFirstBare exchange.serverFirst withoutProof
    exchange.finish P
        (finalText (P.encode exchange.expectedChannelBinding) exchange.combinedNonce
          (P.encode (xor clientKey (P.hmac (P.sha256 clientKey) message)))) =
      .ok (serverFinal P exchange.saltedPassword message) := by
  intro withoutProof message
  have hlength : clientKey.length = (P.hmac (P.sha256 clientKey) message).length := by
    rw [hkey, P.hmac_length, P.hmac_length]
  generalize hproof : xor clientKey (P.hmac (P.sha256 clientKey) message) = proof
  have hform : finalText (P.encode exchange.expectedChannelBinding) exchange.combinedNonce
      (P.encode proof) = withoutProof ++ (comma :: ascii "p=" ++ P.encode proof) := by
    simp only [finalText, withoutProof, List.append_assoc]
    rfl
  have hutf8 : IsText (finalText (P.encode exchange.expectedChannelBinding) exchange.combinedNonce
      (P.encode proof)) :=
    (((((isText_ascii rfl).append (P.isText_encode _)).append
      (isText_ascii rfl)).append htext).append (isText_ascii rfl)).append
        (P.isText_encode _)
  have hattributes := attributes_finalText (P.comma_notMem_encode exchange.expectedChannelBinding)
    hplain (P.comma_notMem_encode proof)
  rw [hform] at hutf8 hattributes ⊢
  have hmarker : rfind proofMarker _ = some withoutProof.length :=
    rfind_last (by decide) (P.comma_notMem_encode proof)
  refine ScramExchange.finish_eq_ok.2 ⟨hutf8.valid, withoutProof.length, _,
    P.encode exchange.expectedChannelBinding, P.encode proof, proof, hmarker, hattributes, ?_, ?_,
    ?_, P.decode_encode _, ?_, ?_, P.decode_encode _, ?_, ?_, ?_⟩
  · exact rejectMandatoryExtension_eq_ok.2 (by simp)
  · exact (required_eq_ok (by simp)).2 (by simp)
  · exact (required_eq_ok (by simp)).2 (by simp)
  · exact (required_eq_ok (by simp)).2 (by simp)
  · simp [withoutProof, ascii]
    omega
  · rw [← hproof, xor_length hlength, hkey, P.hmac_length]
  · -- the proof gives the client key back
    rw [List.take_left, ← hproof, storedKey, ← hkey, xor_cancel hlength]
  · rw [List.take_left]

/-! ## Both halves -/

theorem scram_verification (P : Primitives) {password salt : Bytes} {iterations : UInt32}
    {channelBinding : ServerChannelBinding} {server : ScramServer}
    (hserver : ScramServer.withParameters P password salt iterations channelBinding = .ok server)
    (draws : Draws) :
    -- a client with the right password is accepted
    (∀ mechanism gs2Header data nonce (user : String),
      Allowed mechanism channelBinding gs2Header data → validateNonce nonce = .ok () →
        ∃ exchange serverFirst final,
          server.start P draws mechanism (gs2Header ++ clientFirstBare user nonce) =
            .ok (exchange, serverFirst) ∧
          clientFinal P password gs2Header data (clientFirstBare user nonce) nonce serverFirst =
            .ok final ∧
          exchange.finish P final.text =
            .ok (serverFinal P final.saltedPassword final.authMessage)) ∧
    -- and whoever is accepted has proved the password over the messages exchanged
    ∀ mechanism clientFirst exchange serverFirst clientFinal verifier,
      server.start P draws mechanism clientFirst = .ok (exchange, serverFirst) →
      exchange.finish P clientFinal = .ok verifier →
        ∃ gs2Header bare nonce data encodedBinding earlier encodedProof proof,
          splitGs2 clientFirst = .ok (gs2Header, bare) ∧
          serverFirst = server.firstMessage P nonce ∧ randomNonce draws <:+ nonce ∧
          Allowed mechanism channelBinding gs2Header data ∧
          WellFormed (earlier ++ [(0x70, encodedProof)]) ∧
          clientFinal = join (earlier ++ [(0x70, encodedProof)]) ∧
          (0x72, nonce) ∈ earlier ∧
          (0x63, encodedBinding) ∈ earlier ∧ P.decode encodedBinding = some (gs2Header ++ data) ∧
          P.decode encodedProof = some proof ∧ proof.length = 32 ∧
          let saltedPassword := hi P (normalize P password) salt iterations
          let message := authMessage bare serverFirst (join earlier)
          P.sha256 (xor proof (P.hmac (storedKey P saltedPassword) message)) =
            storedKey P saltedPassword ∧
          verifier = serverFinal P saltedPassword message := by
  unfold ScramServer.withParameters at hserver
  split_ifs at hserver
  cases hserver
  constructor
  · intro mechanism gs2Header data nonce user hallowed hnonce
    have hbytes : ∀ b ∈ nonce ++ randomNonce draws, isNonceByte b = true := by
      intro b hb
      rcases List.mem_append.1 hb with hb | hb
      · exact (validateNonce_eq_ok.1 hnonce).2 b hb
      · exact randomNonce_bytes draws b hb
    obtain ⟨hplain, htext⟩ := nonceBytes_plain hbytes
    refine ⟨_, _, _, start_accepts hallowed draws user hnonce,
      clientFinal_firstMessage P _ password gs2Header data _ nonce hplain rfl, ?_⟩
    exact finish_accepts hplain htext rfl
  · intro mechanism clientFirst exchange serverFirst clientFinal verifier hstart hfinish
    exact ScramExchange.sound hstart hfinish

/-- The functions of the other crates, SASLprep apart: it is the identity on printable ASCII. -/
def Primitives.standard : Primitives where
  sha256 := Sha256.sha256
  hmac := Sha256.hmac
  encode := Base64.encode
  decode := Base64.decode
  saslprep password := if password.all fun b => 0x20 ≤ b && b < 0x7f then some password else none
  hmac_length := Sha256.length_hmac
  decode_encode := Base64.decode_encode
  encode_ascii := Base64.encode_letter

def Draws.constant : Draws where
  bytes := List.replicate 24 0x2b
  range b hb := by
    rw [List.eq_of_mem_replicate hb]
    decide

/-- The server of the tests: the password is `pencil`, and the transport has no binding data. -/
def ScramServer.pencil : ScramServer where
  password := ascii "pencil"
  salt := ascii "salt"
  iterations := defaultIterations
  channelBinding := .none

theorem scram_verification_pencil :
    ScramServer.withParameters .standard ScramServer.pencil.password ScramServer.pencil.salt
        defaultIterations .none = .ok .pencil ∧
      ∃ (exchange : ScramExchange) (serverFirst : Bytes) (final : ClientFinal),
        ScramServer.pencil.start .standard .constant scramSha256
            (gs2Unused ++ clientFirstBare "user" (ascii "xy")) =
          .ok (exchange, serverFirst) ∧
        exchange.finish .standard final.text =
          .ok (serverFinal .standard final.saltedPassword final.authMessage) := by
  have hserver : ScramServer.withParameters .standard ScramServer.pencil.password
      ScramServer.pencil.salt defaultIterations .none = .ok .pencil := by
    decide
  refine ⟨hserver, ?_⟩
  obtain ⟨hcomplete, -⟩ := scram_verification .standard hserver .constant
  obtain ⟨exchange, serverFirst, final, hstart, -, hfinish⟩ :=
    hcomplete _ _ _ (ascii "xy") "user" .unused (by decide)
  exact ⟨exchange, serverFirst, final, hstart, hfinish⟩

end Scram
end PgProto
