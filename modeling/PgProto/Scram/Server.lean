import PgProto.Scram.Attributes

/-!
# Server — verification of SCRAM-SHA-256 and SCRAM-SHA-256-PLUS

`ScramServer` and `ScramExchange` of `src/scram.rs`.  The hash functions, base64 and SASLprep come
from other crates and are a parameter, `Primitives`, with what the code relies on: the length of a
digest, that base64 is decoded as it was encoded, and that its output is ASCII without commas.  The
random bytes of the nonce are an argument of `start`.
-/

namespace PgProto
namespace Scram

open Lib

/-! ## What comes from other crates -/

structure Primitives where
  sha256 : Bytes → Bytes
  hmac : Bytes → Bytes → Bytes
  /-- `STANDARD.encode` of the base64 crate. -/
  encode : Bytes → Bytes
  /-- `STANDARD.decode` of the base64 crate. -/
  decode : Bytes → Option Bytes
  saslprep : Bytes → Option Bytes
  hmac_length : ∀ key input, (hmac key input).length = 32
  decode_encode : ∀ bytes, decode (encode bytes) = some bytes
  encode_ascii : ∀ bytes, ∀ b ∈ encode bytes, b < 0x80 ∧ b ≠ comma

/-- The draws of `random_nonce`, each from `0x21..0x7f`. -/
structure Draws where
  bytes : Bytes
  range : ∀ b ∈ bytes, 0x21 ≤ b ∧ b < 0x7f

def randomNonce (draws : Draws) : Bytes :=
  draws.bytes.map fun b => if b = comma then 0x7e else b

/-! ## Key derivation -/

/-- The exclusive or of two digests. -/
def xor (a b : Bytes) : Bytes :=
  List.zipWith (· ^^^ ·) a b

def normalize (P : Primitives) (password : Bytes) : Bytes :=
  if validUtf8 password then
    match P.saslprep password with
    | none => password
    | some normalised => normalised
  else
    password

/-- The loop of `hi`, for as many more rounds as the first argument says. -/
def hiRounds (P : Primitives) (password : Bytes) : Nat → Bytes → Bytes → Bytes
  | 0, _, output => output
  | rounds + 1, previous, output =>
    let next := P.hmac password previous
    hiRounds P password rounds next (xor output next)

def hi (P : Primitives) (password salt : Bytes) (iterations : UInt32) : Bytes :=
  let first := P.hmac password (salt ++ [0, 0, 0, 1])
  hiRounds P password (iterations.toNat - 1) first first

/-! ## The server -/

inductive ServerChannelBinding
  | none
  | tlsServerEndPoint (binding : Bytes)
  deriving DecidableEq, Repr

structure ScramServer where
  password : Bytes
  salt : Bytes
  iterations : UInt32
  channelBinding : ServerChannelBinding
  deriving DecidableEq, Repr

structure ScramExchange where
  saltedPassword : Bytes
  clientFirstBare : Bytes
  serverFirst : Bytes
  combinedNonce : Bytes
  expectedChannelBinding : Bytes
  deriving DecidableEq, Repr

def defaultIterations : UInt32 := 4096

def scramSha256 : Bytes := ascii "SCRAM-SHA-256"

def scramSha256Plus : Bytes := ascii "SCRAM-SHA-256-PLUS"

def gs2EndPoint : Bytes := ascii "p=tls-server-end-point,,"

def gs2None : Bytes := ascii "n,,"

def gs2Unused : Bytes := ascii "y,,"

def ensure (condition : Bool) (error : Error) : Except Error Unit :=
  if condition then .ok () else .error error

theorem ensure_eq_ok {condition : Bool} {error : Error} {u : Unit} :
    ensure condition error = .ok u ↔ condition = true := by
  cases condition <;> simp [ensure]

/-- An error of another crate, or its result. -/
def ofOption {A : Type} (error : Error) : Option A → Except Error A
  | some a => .ok a
  | none => .error error

theorem ofOption_eq_ok {A : Type} {error : Error} {x : Option A} {a : A} :
    ofOption error x = .ok a ↔ x = some a := by
  cases x <;> simp [ofOption]

def decimal (n : Nat) : Bytes := ascii n.repr

namespace ScramServer

def withParameters (P : Primitives) (password salt : Bytes) (iterations : UInt32)
    (channelBinding : ServerChannelBinding) : Except Error ScramServer :=
  if iterations < defaultIterations then
    .error (.invalid "SCRAM iteration count is below 4096")
  else
    .ok
      { password := normalize P password
        salt := salt
        iterations := iterations
        channelBinding := channelBinding }

def expectedBinding (server : ScramServer) (plus : Bool) (gs2Header : Bytes) :
    Except Error Bytes :=
  match plus, server.channelBinding with
  | true, .tlsServerEndPoint binding =>
    if gs2Header = gs2EndPoint then
      .ok (gs2Header ++ binding)
    else
      .error (.invalid "SCRAM-PLUS channel binding is unavailable or invalid")
  | true, .none => .error (.invalid "SCRAM-PLUS channel binding is unavailable or invalid")
  | false, .tlsServerEndPoint _ =>
    if gs2Header = gs2Unused then
      .error (.invalid "SCRAM channel-binding downgrade detected")
    else if gs2Header = gs2None then
      .ok gs2Header
    else
      .error (.invalid "channel binding used with SCRAM-SHA-256")
  | false, .none =>
    if gs2Header = gs2None ∨ gs2Header = gs2Unused then
      .ok gs2Header
    else
      .error (.invalid "channel binding used with SCRAM-SHA-256")

/-- Whether the mechanism binds the channel. -/
def plusOf (mechanism : Bytes) : Except Error Bool :=
  if mechanism = scramSha256 then
    .ok false
  else if mechanism = scramSha256Plus then
    .ok true
  else
    .error (.invalid "unsupported SCRAM mechanism")

/-- `r=…,s=…,i=…`. -/
def firstMessage (P : Primitives) (server : ScramServer) (combinedNonce : Bytes) : Bytes :=
  ascii "r=" ++ combinedNonce ++ ascii ",s=" ++ P.encode server.salt ++
    ascii ",i=" ++ decimal server.iterations.toNat

def start (P : Primitives) (server : ScramServer) (draws : Draws) (mechanism clientFirst : Bytes) :
    Except Error (ScramExchange × Bytes) := do
  ensure (validUtf8 clientFirst) .utf8
  let (gs2Header, clientFirstBare) ← splitGs2 clientFirst
  let plus ← plusOf mechanism
  let expectedChannelBinding ← server.expectedBinding plus gs2Header
  let attributes ← attributes clientFirstBare
  rejectMandatoryExtension attributes
  let clientNonce ← required attributes 0x72
  validateNonce clientNonce
  let _username ← required attributes 0x6e
  let combinedNonce := clientNonce ++ randomNonce draws
  let serverFirst := server.firstMessage P combinedNonce
  let exchange :=
    { saltedPassword := hi P server.password server.salt server.iterations
      clientFirstBare, serverFirst, combinedNonce, expectedChannelBinding }
  return (exchange, serverFirst)

end ScramServer

/-! ## The client's last message -/

/-- `,p=`. -/
def proofMarker : Bytes := ascii ",p="

def clientKeyText : Bytes := ascii "Client Key"

def serverKeyText : Bytes := ascii "Server Key"

/-- `StoredKey` of a salted password. -/
def storedKey (P : Primitives) (saltedPassword : Bytes) : Bytes :=
  P.sha256 (P.hmac saltedPassword clientKeyText)

/-- `AuthMessage`. -/
def authMessage (clientFirstBare serverFirst withoutProof : Bytes) : Bytes :=
  clientFirstBare ++ [comma] ++ serverFirst ++ [comma] ++ withoutProof

/-- `v=` with the signature of the server. -/
def serverFinal (P : Primitives) (saltedPassword message : Bytes) : Bytes :=
  ascii "v=" ++ P.encode (P.hmac (P.hmac saltedPassword serverKeyText) message)

def ScramExchange.finish (P : Primitives) (exchange : ScramExchange) (clientFinal : Bytes) :
    Except Error Bytes := do
  ensure (validUtf8 clientFinal) .utf8
  let marker ← ofOption (.invalid "SCRAM client-final has no proof") (rfind proofMarker clientFinal)
  let withoutProof := clientFinal.take marker
  let attributes ← attributes clientFinal
  rejectMandatoryExtension attributes
  let nonce ← required attributes 0x72
  ensure (nonce = exchange.combinedNonce) (.invalid "SCRAM nonce mismatch")
  let encodedBinding ← required attributes 0x63
  let channelBinding ← ofOption .base64 (P.decode encodedBinding)
  ensure (channelBinding = exchange.expectedChannelBinding)
    (.invalid "SCRAM channel binding mismatch")
  let encodedProof ← required attributes 0x70
  ensure (marker + 3 + encodedProof.length = clientFinal.length)
    (.invalid "SCRAM proof is not the final attribute")
  let proof ← ofOption .base64 (P.decode encodedProof)
  ensure (proof.length = 32) (.invalid "SCRAM proof is not 32 bytes")
  let message := authMessage exchange.clientFirstBare exchange.serverFirst withoutProof
  let storedKey := storedKey P exchange.saltedPassword
  let clientSignature := P.hmac storedKey message
  let recoveredKey := xor proof clientSignature
  ensure (P.sha256 recoveredKey = storedKey) (.invalid "invalid SCRAM client proof")
  return serverFinal P exchange.saltedPassword message

/-! ## Successful calls -/

/-- The steps of a successful `start`. -/
theorem ScramServer.start_eq_ok {P : Primitives} {server : ScramServer} {draws : Draws}
    {mechanism clientFirst serverFirst : Bytes} {exchange : ScramExchange} :
    server.start P draws mechanism clientFirst = .ok (exchange, serverFirst) ↔
      validUtf8 clientFirst = true ∧
      ∃ gs2Header bare plus expected found clientNonce username,
        splitGs2 clientFirst = .ok (gs2Header, bare) ∧ plusOf mechanism = .ok plus ∧
        server.expectedBinding plus gs2Header = .ok expected ∧ attributes bare = .ok found ∧
        rejectMandatoryExtension found = .ok () ∧ required found 0x72 = .ok clientNonce ∧
        validateNonce clientNonce = .ok () ∧ required found 0x6e = .ok username ∧
        serverFirst = server.firstMessage P (clientNonce ++ randomNonce draws) ∧
        exchange =
          { saltedPassword := hi P server.password server.salt server.iterations
            clientFirstBare := bare
            serverFirst := serverFirst
            combinedNonce := clientNonce ++ randomNonce draws
            expectedChannelBinding := expected } := by
  simp only [start, except_bind_eq_ok, except_pure_eq_ok, ensure_eq_ok, Prod.exists, Prod.mk.injEq]
  constructor
  · rintro ⟨-, hutf8, gs2, bare, hsplit, plus, hplus, expected, hexpected, found, hfound, ⟨⟩, hext,
      nonce, hnonce, ⟨⟩, hvalid, username, husername, rfl, rfl⟩
    exact ⟨hutf8, gs2, bare, plus, expected, found, nonce, username, hsplit, hplus, hexpected,
      hfound, hext, hnonce, hvalid, husername, rfl, rfl⟩
  · rintro ⟨hutf8, gs2, bare, plus, expected, found, nonce, username, hsplit, hplus, hexpected,
      hfound, hext, hnonce, hvalid, husername, rfl, rfl⟩
    exact ⟨(), hutf8, gs2, bare, hsplit, plus, hplus, expected, hexpected, found, hfound, (), hext,
      nonce, hnonce, (), hvalid, username, husername, rfl, rfl⟩

/-- The steps of a successful `finish`. -/
theorem ScramExchange.finish_eq_ok {P : Primitives} {exchange : ScramExchange}
    {clientFinal verifier : Bytes} :
    exchange.finish P clientFinal = .ok verifier ↔
      validUtf8 clientFinal = true ∧
      ∃ marker found encodedBinding encodedProof proof,
        rfind proofMarker clientFinal = some marker ∧ attributes clientFinal = .ok found ∧
        rejectMandatoryExtension found = .ok () ∧
        required found 0x72 = .ok exchange.combinedNonce ∧
        required found 0x63 = .ok encodedBinding ∧
        P.decode encodedBinding = some exchange.expectedChannelBinding ∧
        required found 0x70 = .ok encodedProof ∧
        marker + 3 + encodedProof.length = clientFinal.length ∧
        P.decode encodedProof = some proof ∧ proof.length = 32 ∧
        P.sha256 (xor proof (P.hmac (storedKey P exchange.saltedPassword)
          (authMessage exchange.clientFirstBare exchange.serverFirst (clientFinal.take marker)))) =
            storedKey P exchange.saltedPassword ∧
        verifier = serverFinal P exchange.saltedPassword
          (authMessage exchange.clientFirstBare exchange.serverFirst (clientFinal.take marker)) := by
  simp only [finish, except_bind_eq_ok, except_pure_eq_ok, ensure_eq_ok, ofOption_eq_ok,
    decide_eq_true_eq]
  constructor
  · rintro ⟨-, hutf8, marker, hmarker, found, hfound, ⟨⟩, hext, nonce, hnonce, -, rfl, encodedBinding,
      hbinding, binding, hdecode, -, rfl, encodedProof, hproof, -, hlast, proof, hdecoded, -, hlength,
      -, hkey, rfl⟩
    exact ⟨hutf8, marker, found, encodedBinding, encodedProof, proof, hmarker, hfound, hext, hnonce,
      hbinding, hdecode, hproof, hlast, hdecoded, hlength, hkey, rfl⟩
  · rintro ⟨hutf8, marker, found, encodedBinding, encodedProof, proof, hmarker, hfound, hext, hnonce,
      hbinding, hdecode, hproof, hlast, hdecoded, hlength, hkey, rfl⟩
    exact ⟨(), hutf8, marker, hmarker, found, hfound, (), hext, _, hnonce, (), rfl, encodedBinding,
      hbinding, _, hdecode, (), rfl, encodedProof, hproof, (), hlast, proof, hdecoded, (), hlength,
      (), hkey, rfl⟩

end Scram
end PgProto
