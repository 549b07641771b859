import DsdNexus.Lib.Endian
import DsdNexus.Lib.Slice
import DsdNexus.Lib.Triple
import DsdNexus.Util.Cstring

/-! # The SAC key exchange of a PS3 drive

Six commands between host and drive end in the key of the disc. The drive answers as it
likes, and the cryptographic operations are whatever functions they are, failure included.
-/

namespace DsdNexus.Ps3drive

open Endian Patch Program

/-! ## Errors -/

def ok : Int := 0

def errNotPs3Drive : Int := -3

def errSacFailed : Int := -5

def errScsiFailed : Int := -8

def errCryptoFailed : Int := -9

def errNoSacdFeature : Int := -10

def errNotHybrid : Int := -11

def errLayerSelect : Int := -12

def errNotAuthenticated : Int := -18

def hexDigit (n : Nat) : Char := if n < 10 then Char.ofNat (48 + n) else Char.ofNat (87 + n)

/-- A byte under `%02x`. -/
def hex2 (b : UInt8) : String := String.ofList [hexDigit (b.toNat / 16), hexDigit (b.toNat % 16)]

/-! ## Keys -/

def rsa175Blob : List UInt8 := [
  0x00, 0xa0, 0x98, 0x53, 0xc2, 0xaf, 0x50, 0x6f, 0x5f, 0x88, 0x76, 0xab, 0x45, 0x43, 0x23, 0x3c,
  0x48, 0x04, 0x5a, 0xc0, 0x42, 0xed, 0x5b, 0x3c, 0x9b, 0x02, 0x58, 0xae, 0xdb, 0x23, 0xd2, 0x9e,
  0xd9, 0xd4, 0x70, 0x27, 0x9b, 0x67, 0x72, 0xd0, 0xfe, 0xf8, 0xe4, 0x2e, 0x3b, 0x02, 0xd6, 0x52,
  0x81, 0xd4, 0x23, 0x73, 0x4c, 0x27, 0x05, 0x09, 0x9c, 0x27, 0xd9, 0x78, 0x60, 0x6e, 0xe4, 0xe1,
  0x84, 0x15, 0xb3, 0x0e, 0x88, 0x68, 0x85, 0x10, 0xda, 0x1e, 0xb1, 0xa0, 0x33, 0x72, 0x7b, 0x2c,
  0xa9, 0x25, 0xcc, 0x50, 0x16, 0x85, 0x7e, 0x43, 0x26, 0x93, 0x6f, 0x8d, 0x90, 0xf5, 0xba, 0x92,
  0x97, 0xa4, 0x3c, 0x07, 0x67, 0x16, 0x9e, 0x1e, 0x2a, 0xd5, 0xb5, 0xf6, 0x36, 0x72, 0x1e, 0x90,
  0xcc, 0xf5, 0x83, 0x85, 0x72, 0xf6, 0xc8, 0x28, 0x4e, 0x85, 0xf9, 0x21, 0x96, 0xaa, 0xf8, 0x2d,
  0xd0, 0x01, 0x76, 0x9d, 0x82, 0x50, 0xca, 0x3e, 0x54, 0xfc, 0xdb, 0xde, 0x31, 0x1d, 0xa0, 0xb2,
  0xb1, 0xef, 0x13, 0xbd, 0xa3, 0x24, 0x1e, 0x11, 0xc8, 0xff, 0xb8, 0xba, 0xb7, 0x18, 0x79, 0xfb,
  0x02, 0x27, 0x30, 0x83, 0x06, 0x12, 0xec, 0x8f, 0x97, 0x23, 0x05, 0x00, 0x01, 0x00, 0x01]

def caRootN : List UInt8 := [
  0xbe, 0x95, 0xa0, 0xc4, 0x3e, 0xde, 0xaa, 0xde, 0x77, 0x7a, 0x54, 0x52, 0x1f, 0x5b, 0x98, 0x36,
  0xd8, 0xc1, 0xfa, 0x17, 0x07, 0x1f, 0x12, 0xdd, 0xf1, 0xb3, 0x02, 0x89, 0xcc, 0x9f, 0xb2, 0x42,
  0x00, 0x50, 0x8b, 0x87, 0x5e, 0x6f, 0x15, 0x5f, 0x9a, 0xb8, 0xd8, 0xb8, 0x08, 0xdb, 0x75, 0x26,
  0x82, 0xb2, 0x0c, 0xac, 0x56, 0xf8, 0xea, 0x22, 0x76, 0xdb, 0x52, 0xd8, 0x1e, 0x31, 0x95, 0xfe,
  0xa3, 0x1a, 0x53, 0x9f, 0x9a, 0xb9, 0xe6, 0x82, 0x32, 0xcc, 0x52, 0x37, 0x35, 0xe1, 0x8c, 0xec,
  0x41, 0x11, 0x2a, 0xad, 0xf8, 0xa6, 0x6d, 0xa7, 0x82, 0xba, 0x29, 0x7a, 0xac, 0x60, 0xce, 0xa3,
  0x23, 0xb0, 0x67, 0xd3, 0x57, 0xb3, 0x41, 0x0f, 0xcb, 0x84, 0x25, 0x31, 0x59, 0xca, 0xd5, 0x5b,
  0x66, 0x64, 0xfd, 0x88, 0x8f, 0x19, 0x6b, 0xb7, 0x8e, 0xb2, 0xbe, 0x85, 0xeb, 0xeb, 0xdd, 0x1f]

def sessionIv : List UInt8 := [
  0x00, 0x00, 0x00, 0x10, 0x00, 0x00, 0x00, 0x00, 0x00, 0x00, 0x00, 0x00, 0x00, 0x00, 0x00, 0x00]

def discIv : List UInt8 := [
  0x67, 0x94, 0xc8, 0x66, 0x6f, 0xb9, 0x0d, 0xf0, 0xb6, 0x35, 0x0b, 0x18, 0x16, 0xd5, 0xc8, 0xf0]

/-! ## Drive, crypto library and handle -/

/-- The status of a command or an operation, and what it puts in its buffer. -/
structure Answer where
  status : Int
  bytes : List UInt8

/-- What the drive answers. Every command stands once, so that an answer may depend on all
that was sent before it. -/
structure Drive where
  readDiscStructure : Answer
  /-- Selecting a layer. -/
  startStopUnit : Nat → Int
  /-- The status of INQUIRY, and the product identification. -/
  simpleInquiry : Answer
  getConfig : Answer
  modeSense : Answer
  modeSelect : List UInt8 → Int
  /-- By the number of the key and the key format. -/
  sacReportKey : Nat → UInt8 → Answer
  sacSendKey : Nat → UInt8 → List UInt8 → Int

/-- The crypto library, and the random bytes drawn from it. -/
structure Crypto where
  init : Int
  rsa1024PublicOp : List UInt8 → List UInt8 → Answer
  rsa1024PrivateOp : List UInt8 → Answer
  sha1 : List UInt8 → List UInt8
  aes128CbcDecrypt : List UInt8 → List UInt8 → List UInt8 → Answer
  hostRandom : List UInt8
  hostSessionRandom : List UInt8
  /-- The padding, drawn again wherever it holds a zero. -/
  padding : List UInt8

structure Env where
  drive : Drive
  crypto : Crypto

structure Handle where
  aesKey : List UInt8
  aesIv : List UInt8
  authenticated : Bool
  sacExchanged : Bool
  productId : List UInt8
  hasSacdFeature : Bool
  driveType : Nat
  isHybrid : Bool
  hybridChecked : Bool
  lastError : Int
  errorMsg : String

def Handle.setError (h : Handle) (err : Int) (text : String) : Handle :=
  { h with lastError := err, errorMsg := text }

/-! ## The exchange -/

/-- The exchange as it runs: the handle, the variable of the last status, and the buffer
the drive's answers go to. -/
structure Exchange where
  handle : Handle
  ret : Int
  ioctlBuffer : List UInt8

/-- A part of the exchange. To stop with an error is to jump to the cleanup. -/
abbrev Sac := Program Unit Exchange

def setError (err : Int) (text : String) : Sac Unit :=
  modify fun x => { x with handle := x.handle.setError err text }

/-- A call that reports its status, which goes to the status variable. -/
def attempt (status : Int) (err : Int) (text : String) : Sac Unit := do
  modify fun x => { x with ret := status }
  when (status ≠ 0) (setError err (text ++ toString status))
  require (status = 0) ()

/-- A check of what was received. The status variable stays as it is. -/
def check (p : Prop) [Decidable p] (err : Int) (text : String) : Sac Unit := do
  when (¬ p) (setError err text)
  require p ()

def ioctlBuffer : Sac (List UInt8) := do
  let x ← get
  pure x.ioctlBuffer

/-- An answer of the drive of at most `size` bytes in the buffer. -/
def received (buffer : List UInt8) (size : Nat) (answer : Answer) : List UInt8 :=
  overwrite 0 buffer (0, answer.bytes.take size)

def reportKey (answer : Answer) (size : Nat) (text : String) : Sac Unit := do
  modify fun x => { x with ioctlBuffer := received x.ioctlBuffer size answer }
  attempt answer.status errSacFailed text

/-- `SAC_SEND_SIZE` -/
def sacSendSize (payload : Nat) : Nat :=
  payload + 4 + if payload % 4 ≠ 0 then 4 - payload % 4 else 0

/-- A packet to the drive: its length, the payload, and zeros up to the size sent. -/
def packet (payload : List UInt8) : List UInt8 :=
  toBe 4 payload.length ++ payload ++
    List.replicate (sacSendSize payload.length - (payload.length + 4)) 0

/-- The packet of CMD 2. -/
def challenge (c : Crypto) : List UInt8 :=
  packet (c.hostRandom ++ List.replicate 4 0 ++ toBe 4 1 ++ [0x00, 0x99] ++ rsa175Blob)

/-- What the exchange keeps of the drive's certificate. -/
structure Certificate where
  driveResponse : List UInt8
  certId2 : List UInt8
  drivePubkey : List UInt8

def certificate (response decrypted : List UInt8) : Certificate where
  driveResponse := response.take 16
  certId2 := slice response 16 8
  drivePubkey := slice decrypted 18 89 ++ slice response (26 + 128) 39

/-- CMD 3: Validate Key 1 -/
def validateKey1 (e : Env) (keyFmt : UInt8) : Sac Certificate := do
  reportKey (e.drive.sacReportKey 2 keyFmt) 208 "SAC CMD 3 failed: "
  let buffer ← ioctlBuffer
  let response := buffer.drop 4
  check (response.getD 25 0 = 0x95) errSacFailed
    ("Invalid certificate type: 0x" ++ hex2 (response.getD 25 0))
  let decrypted := e.crypto.rsa1024PublicOp caRootN (slice response 26 128)
  attempt decrypted.status errSacFailed "Certificate RSA verification failed: "
  -- The only check that leaves no error behind.
  require (decrypted.bytes.getD 0 0 = 0x6a) ()
  pure (certificate response decrypted.bytes)

/-- Padding of type 2 around the host's certificate id and session random. -/
def paddedSession (c : Crypto) : List UInt8 :=
  [0x00, 0x02] ++ c.padding ++ [0x00] ++ toBe 8 1 ++ c.hostSessionRandom

def signInput (c : Crypto) (cert : Certificate) (encryptedSession : List UInt8) : List UInt8 :=
  [0x6a] ++ cert.driveResponse ++ cert.certId2 ++ encryptedSession.take 82 ++
    c.sha1 (cert.driveResponse ++ cert.certId2 ++ encryptedSession) ++ [0xBC]

/-- The packet of CMD 4. -/
def sessionMsg (signature encryptedSession : List UInt8) : List UInt8 :=
  packet (signature ++ slice encryptedSession 82 46)

/-- CMD 4: Generate Key 2 -/
def generateKey2 (e : Env) (keyFmt : UInt8) (cert : Certificate) : Sac Unit := do
  let encrypted := e.crypto.rsa1024PublicOp cert.drivePubkey (paddedSession e.crypto)
  attempt encrypted.status errCryptoFailed "RSA encrypt session_random failed: "
  let signature := e.crypto.rsa1024PrivateOp (signInput e.crypto cert encrypted.bytes)
  attempt signature.status errCryptoFailed "RSA-1024 sign failed: "
  attempt (e.drive.sacSendKey 3 keyFmt (sessionMsg signature.bytes encrypted.bytes))
    errSacFailed "SAC CMD 4 failed: "

def innerCiphertext (response outer : List UInt8) : List UInt8 :=
  slice outer 25 64 ++ slice outer 89 18 ++ slice response 128 46

/-- Where the padding ends: the first zero from the third byte on, 128 if there is none. -/
def separator (inner : List UInt8) : Nat := 2 + ((slice inner 2 126).takeWhile (· ≠ 0)).length

def sessionKey (c : Crypto) (driveSessionRandom : List UInt8) : List UInt8 :=
  (c.sha1 (c.hostSessionRandom ++ driveSessionRandom)).take 16

/-- CMD 5: Validate Key 2 -/
def validateKey2 (e : Env) (keyFmt : UInt8) (cert : Certificate) : Sac (List UInt8) := do
  reportKey (e.drive.sacReportKey 3 keyFmt) 180 "SAC CMD 5 failed: "
  let buffer ← ioctlBuffer
  let response := buffer.drop 4
  let outer := e.crypto.rsa1024PublicOp cert.drivePubkey (response.take 128)
  attempt outer.status errCryptoFailed "Outer RSA decrypt failed: "
  check (outer.bytes.getD 0 0 = 0x6a) errSacFailed
    ("Invalid outer RSA marker: 0x" ++ hex2 (outer.bytes.getD 0 0))
  check (slice outer.bytes 1 16 = e.crypto.hostRandom) errSacFailed "Host random mismatch in CMD5"
  let inner := e.crypto.rsa1024PrivateOp (innerCiphertext response outer.bytes)
  attempt inner.status errCryptoFailed "Inner RSA decrypt failed: "
  check (inner.bytes.getD 0 0 = 0x00 ∧ inner.bytes.getD 1 0 = 0x02) errSacFailed
    ("Invalid PKCS#1 header: " ++ hex2 (inner.bytes.getD 0 0) ++ " " ++ hex2 (inner.bytes.getD 1 0))
  check (separator inner.bytes < 128 - 24) errSacFailed "PKCS#1 separator not found"
  let i := separator inner.bytes + 1
  check (slice inner.bytes i 8 = cert.certId2) errSacFailed "Certificate ID mismatch in CMD5"
  pure (sessionKey e.crypto (slice inner.bytes (i + 8) 16))

/-- CMD 6: the key blob of the drive, deciphered. -/
def keyBlob (e : Env) (keyFmt : UInt8) (key : List UInt8) : Sac (List UInt8) := do
  reportKey (e.drive.sacReportKey 4 keyFmt) 52 "SAC CMD 6 failed: "
  let buffer ← ioctlBuffer
  let decrypted := e.crypto.aes128CbcDecrypt key sessionIv (slice buffer 4 48)
  attempt decrypted.status errCryptoFailed "AES decryption failed: "
  pure decrypted.bytes

/-- The key of the disc is the last part of the blob; the IV is the fixed one. -/
def storeKey (blob : List UInt8) : Sac Unit :=
  modify fun x =>
    { x with handle := { x.handle with aesKey := slice blob 0x20 16, aesIv := discIv }, ret := 0 }

/-- From CMD 0 to the cleanup. -/
def exchange (e : Env) : Sac Unit := do
  reportKey (e.drive.sacReportKey 0 0) 8 "SAC CMD 0 failed: "
  let buffer ← ioctlBuffer
  let keyFmt := buffer.getD 7 0
  attempt (e.drive.sacSendKey 2 keyFmt (challenge e.crypto)) errSacFailed "SAC CMD 2 failed: "
  let cert ← validateKey1 e keyFmt
  generateKey2 e keyFmt cert
  let key ← validateKey2 e keyFmt cert
  let blob ← keyBlob e keyFmt key
  storeKey blob

/-- `ps3drive_sac_exchange_internal`. However the exchange ends, the verdict is the status
variable's. -/
def sacExchangeInternal (e : Env) (h : Handle) : Int × Handle :=
  if e.crypto.init ≠ 0 then
    (errCryptoFailed,
      h.setError errCryptoFailed ("Failed to initialize RNG: " ++ toString e.crypto.init))
  else
    let stopped := (exchange e ⟨h, e.crypto.init, List.replicate 256 0⟩).2
    (if stopped.ret ≠ 0 then errSacFailed else ok, stopped.handle)

/-! ## The key exchange of a handle -/

/-- The drives of the PS3, by product identification. -/
def idTable : List (String × Nat) := [
  ("PS-SYSTEM   300R", 0x1200000000000001), ("PS-SYSTEM   301R", 0x1200000000000002),
  ("PS-SYSTEM   302R", 0x1200000000000003), ("PS-SYSTEM   303R", 0x1200000000000004),
  ("PS-SYSTEM   304R", 0x1200000000000005), ("PS-SYSTEM   306R", 0x1200000000000007),
  ("PS-SYSTEM   308R", 0x1200000000000008), ("PS-SYSTEM   310R", 0x1200000000000009),
  ("PS-SYSTEM   312R", 0x120000000000000a), ("PS-SYSTEM   314R", 0x120000000000000b)]

def lookupType (productId : List UInt8) : Nat :=
  ((idTable.find? fun id => (ascii id.1).isPrefixOf productId).map (·.2)).getD 0

def text (s : Bytes) : String := String.ofList (s.map fun b => Char.ofNat b.toNat)

/-- A function of the handle. An error is what it returns other than `ok`. -/
abbrev OnHandle := Program Int Handle

/-- Note the error and return it. -/
def giveUp {α : Type} (err : Int) (text : String) : OnHandle α := do
  modify (·.setError err text)
  fail err

/-- Return unless it is this error. -/
def tolerate (err : Int) (m : OnHandle Unit) : OnHandle Unit := fun h =>
  match m h with
  | (.error e, h') => (if e = err then .ok () else .error e, h')
  | (.ok u, h') => (.ok u, h')

def layerType (resp : List UInt8) (i : Nat) : Nat := ofBe (slice resp (6 + i * 2) 2)

def selectSacdLayer (d : Drive) : OnHandle Unit := do
  let resp := d.readDiscStructure.bytes
  let layerCount := (resp.getD 4 0).toNat
  if d.readDiscStructure.status = 0 ∧ 5 < ofBe (resp.take 2) ∧ 2 ≤ layerCount then
    match (List.range layerCount).find? (layerType resp · = 0x10) with
    | some i =>
      when (d.startStopUnit i ≠ 0)
        (giveUp errLayerSelect ("Failed to select SACD layer " ++ toString i))
      modify fun h => { h with isHybrid := true, hybridChecked := true }
    | none => modify fun h => { h with isHybrid := false, hybridChecked := true }
  else
    modify fun h => { h with isHybrid := false, hybridChecked := true }

def inquiryInternal (d : Drive) : OnHandle Unit := do
  when (d.simpleInquiry.status ≠ 0)
    (giveUp errScsiFailed ("INQUIRY failed: " ++ toString d.simpleInquiry.status))
  modify fun h =>
    { h with productId := (strlcpy d.simpleInquiry.bytes 17).rdropWhile (· = 0x20) }

def checkSacdFeatureInternal (d : Drive) : OnHandle Unit := do
  when (d.getConfig.status ≠ 0)
    (giveUp errNoSacdFeature ("SACD feature check failed: " ++ toString d.getConfig.status))
  let resp := d.getConfig.bytes
  if (resp.getD 0 0).toNat % 2 = 0 ∧ (resp.getD 10 0).toNat % 2 ≠ 0 then
    when (d.modeSense.status ≠ 0)
      (giveUp errNoSacdFeature ("MODE SENSE for SACD failed: " ++ toString d.modeSense.status))
    let mode := overwrite 0 resp (0, d.modeSense.bytes.take 16)
    when (mode.getD 11 0 = 2 ∧ d.modeSelect mode ≠ 0)
      (giveUp errNoSacdFeature ("MODE SELECT for SACD failed: " ++ toString (d.modeSelect mode)))
    modify fun h => { h with hasSacdFeature := true }
  else
    giveUp errNoSacdFeature "SACD feature not available or not current"

/-- The exchange on the key and the IV of the handle itself. -/
def exchangeKeys (e : Env) : OnHandle Unit := fun h =>
  let done := sacExchangeInternal e h
  (if done.1 = ok then .ok () else .error done.1, done.2)

/-- `ps3drive_sac_key_exchange`, with the key and the IV it copies out. -/
def sacKeyExchange (e : Env) : OnHandle (List UInt8 × List UInt8) := do
  let h ← get
  if h.sacExchanged then
    pure (h.aesKey, h.aesIv)
  else
    when (h.authenticated = false)
      (giveUp errNotAuthenticated "BD authentication required before SAC key exchange")
    -- Nobody looks at how setting the speed went.
    tolerate errNotHybrid (selectSacdLayer e.drive)
    inquiryInternal e.drive
    modify fun h => { h with driveType := lookupType h.productId }
    let h ← get
    when (h.driveType = 0)
      (giveUp errNotPs3Drive ("'" ++ text h.productId ++ "' is not a recognized PS3 drive"))
    checkSacdFeatureInternal e.drive
    exchangeKeys e
    modify fun h => { h with sacExchanged := true }
    let h ← get
    pure (h.aesKey, h.aesIv)

end DsdNexus.Ps3drive
