import DsdNexus.Sacd.PbDecode

/-! # Sectors read over the network

A read sends a request, decodes one response and copies the data of it. What the server
sends stays in the connection until it is read, whichever request it was meant for.
-/

namespace DsdNexus.Sacd

/-! ## Status values -/

def inputOk : Int := 0

def inputErrReadFailed : Int := -3

def inputErrNetwork : Int := -9

def inputErrClosed : Int := -13

theorem readFailed_ne_ok : inputErrReadFailed ≠ inputOk := by decide

/-! ## Requests -/

/-- `ServerRequest_Type_DISC_READ` and `ServerResponse_Type_DISC_READ`. -/
def discRead : Nat := 3

/-- `pb_encode_varint`, of at most ten bytes. -/
def encodeVarint : Nat → Nat → List UInt8
  | 0, _ => []
  | k + 1, n =>
    if n < 128 then [UInt8.ofNat n] else UInt8.ofNat (n % 128 + 128) :: encodeVarint k (n / 128)

/-- A READ request as `pb_encode` writes it. -/
def encodeRequest (sectorOffset sectorCount : UInt32) : List UInt8 :=
  0x08 :: encodeVarint 10 discRead ++ 0x10 :: encodeVarint 10 sectorOffset.toNat ++
    0x18 :: encodeVarint 10 sectorCount.toNat

/-- `_send_all` by the results of `tcs_send`: the bytes sent, or nothing for an error. -/
def sendAll : Nat → List (Option Nat) → Bool
  | 0, _ => true
  | _ + 1, [] => false
  | _ + 1, none :: _ => false
  | n + 1, some sent :: results => if sent = 0 then false else sendAll (n + 1 - sent) results

/-! ## The input -/

/-- A byte of the server and the number of the request it was sent for. -/
structure Sent where
  byte : UInt8
  request : Nat
  deriving DecidableEq, Repr

/-- `sacd_input_network_t`, with what lies in the connection and the number of requests made
so far. -/
structure Network where
  connected : Bool
  inFlight : List Sent
  requests : Nat
  lastError : Int
  errorMsg : String

def Network.setError (s : Network) (err : Int) (text : String) : Network :=
  { s with lastError := err, errorMsg := text }

/-- A call of `read_sectors`: its arguments, how sending goes, what the server sends from
then on until the next request, and how many bytes the socket delivers before a receive
fails or finds the connection closed. -/
structure ReadCall where
  sectorPos : UInt32
  sectorCount : UInt32
  sends : List (Option Nat)
  answer : List UInt8
  delivered : Nat

/-- What the call returns, copies into the caller's buffer and reports. -/
structure ReadResult where
  status : Int
  copied : List Sent
  sectorsRead : Nat

/-- `(uint32_t)response->result` -/
def ServerResponse.reported (m : ServerResponse Sent) : Nat := (m.result % 2 ^ 32).toNat

/-- A READ response with data in it. -/
def ServerResponse.HasSectors (m : ServerResponse Sent) : Prop :=
  m.type = discRead ∧ m.hasData = true ∧ 0 < m.data.length

instance (m : ServerResponse Sent) : Decidable m.HasSectors :=
  inferInstanceAs (Decidable (_ ∧ _ ∧ _))

/-- The bytes of the connection from the request on. -/
def ReadCall.stream (c : ReadCall) (s : Network) : List Sent :=
  s.inFlight ++ c.answer.map fun b => ⟨b, s.requests⟩

/-- The request goes out. The buffer of thirty-two bytes has room for every request and the
zero behind it. -/
def ReadCall.sent (c : ReadCall) : Bool :=
  sendAll ((encodeRequest c.sectorPos c.sectorCount).length + 1) c.sends

/-- What becomes of a response. -/
def readResponse (sectorCount : UInt32) (m : ServerResponse Sent) : ReadResult :=
  if m.type ≠ discRead then ⟨inputErrReadFailed, [], 0⟩
  else if m.hasData = true ∧ 0 < m.data.length then
    ⟨if m.reported = sectorCount.toNat then inputOk else inputErrReadFailed, m.data, m.reported⟩
  else ⟨inputErrReadFailed, [], 0⟩

/-- `_network_read_sectors` -/
def networkReadSectors (c : ReadCall) (s : Network) : ReadResult × Network :=
  if c.sectorCount = 0 then (⟨inputOk, [], 0⟩, s)
  else if s.connected = false then
    (⟨inputErrClosed, [], 0⟩, s.setError inputErrClosed "not connected")
  else
    let stream := c.stream s
    let s := { s with requests := s.requests + 1, inFlight := stream }
    if c.sent = false then
      (⟨inputErrNetwork, [], 0⟩, s.setError inputErrNetwork "failed to send READ request")
    else
      match decodeResponse Sent.byte (stream.take c.delivered) with
      | (.error _, t) =>
        (⟨inputErrNetwork, [], 0⟩,
          { s with inFlight := t.source ++ stream.drop c.delivered }.setError inputErrNetwork
            "failed to decode READ response")
      | (.ok m, t) =>
        let s := { s with inFlight := t.source ++ stream.drop c.delivered }
        (readResponse c.sectorCount m,
          if m.type ≠ discRead then
            s.setError inputErrReadFailed "unexpected response type for READ"
          else s)

/-! ## Runs -/

/-- A call as it was answered. -/
structure Turn where
  call : ReadCall
  before : Network
  result : ReadResult

def networkRun : Network → List ReadCall → List Turn
  | _, [] => []
  | s, c :: cs => ⟨c, s, (networkReadSectors c s).1⟩ :: networkRun (networkReadSectors c s).2 cs

namespace Turn

/-- The call gets as far as sending a request. -/
def Asks (t : Turn) : Prop := t.call.sectorCount ≠ 0 ∧ t.before.connected = true

instance (t : Turn) : Decidable t.Asks := inferInstanceAs (Decidable (_ ∧ _))

/-- The message the library decodes from the connection. -/
def message (t : Turn) : Option (ServerResponse Sent) :=
  if t.Asks ∧ t.call.sent = true then
    match decodeResponse Sent.byte ((t.call.stream t.before).take t.call.delivered) with
    | (.error _, _) => none
    | (.ok m, _) => some m
  else none

/-- Sending the request or decoding the response failed. -/
def Broke (t : Turn) : Prop := t.Asks ∧ t.message = none

end Turn

/-- What makes the reads of a run trustworthy. -/
structure TrustworthyReads (turns : List Turn) : Prop where
  copied : ∀ t ∈ turns, t.result.copied.length ≤ t.call.sectorCount.toNat * 2048
  reported : ∀ t ∈ turns, t.result.sectorsRead ≤ t.call.sectorCount.toNat
  complete : ∀ t ∈ turns, t.result.status = inputOk → t.call.sectorCount = 0 ∨
    ∃ m, t.message = some m ∧ m.data.length = t.call.sectorCount.toNat * 2048 ∧
      t.result.copied = m.data
  fresh : ∀ (i j : Nat) (t u : Turn), i < j → turns[i]? = some t → turns[j]? = some u →
    t.result.status = inputErrNetwork → u.result.status = inputOk →
    ∀ b ∈ u.result.copied, u.before.requests ≤ b.request

/-- A response the code is right to take: its data fit what was asked for, it reports no
more than that, and if it reports just that, its data are complete and, after a failure of
the connection, none of them were sent for an earlier request. -/
structure FaithfulResponse (t : Turn) (broken : Prop) (m : ServerResponse Sent) : Prop where
  fits : m.data.length ≤ t.call.sectorCount.toNat * 2048
  reported : m.reported ≤ t.call.sectorCount.toNat
  complete : m.reported = t.call.sectorCount.toNat →
    m.data.length = t.call.sectorCount.toNat * 2048
  fresh : m.reported = t.call.sectorCount.toNat → broken →
    ∀ b ∈ m.data, t.before.requests ≤ b.request

/-- Whenever the message decoded in a call is a READ response with data, it is faithful. -/
def ServerFaithful (turns : List Turn) : Prop :=
  ∀ (j : Nat) (t : Turn) m, turns[j]? = some t → t.message = some m → m.HasSectors →
    FaithfulResponse t (∃ i : Nat, ∃ u : Turn, i < j ∧ turns[i]? = some u ∧ u.Broke) m

/-! ## One call -/

variable {turns : List Turn} {t : Turn} {m : ServerResponse Sent}

/-- The turns of a run are answered as the code answers them. -/
def Answered (turns : List Turn) : Prop :=
  ∀ t ∈ turns, t.result = (networkReadSectors t.call t.before).1

theorem networkRun_answered (s : Network) (calls : List ReadCall) :
    Answered (networkRun s calls) := by
  induction calls generalizing s with
  | nil => exact fun t ht => absurd ht List.not_mem_nil
  | cons c cs ih =>
    intro t ht
    rw [networkRun, List.mem_cons] at ht
    rcases ht with rfl | ht
    · rfl
    · exact ih _ t ht

theorem readResponse_of_hasSectors {count : UInt32} (h : m.HasSectors) : readResponse count m =
    ⟨if m.reported = count.toNat then inputOk else inputErrReadFailed, m.data, m.reported⟩ := by
  rw [readResponse, if_neg (not_not.2 h.1), if_pos h.2]

theorem readResponse_of_not {count : UInt32} (h : ¬ m.HasSectors) :
    readResponse count m = ⟨inputErrReadFailed, [], 0⟩ := by
  rw [readResponse]
  split
  · rfl
  · next htype => rw [if_neg fun hdata => h ⟨not_not.1 htype, hdata⟩]

/-- What a turn comes to by its message. -/
theorem result_cases (h : t.result = (networkReadSectors t.call t.before).1) :
    t.call.sectorCount = 0 ∧ t.result = ⟨inputOk, [], 0⟩ ∧ t.message = none ∨
    t.call.sectorCount ≠ 0 ∧ t.before.connected = false ∧ t.message = none ∧
      t.result = ⟨inputErrClosed, [], 0⟩ ∨
    t.Broke ∧ t.result = ⟨inputErrNetwork, [], 0⟩ ∨
    t.Asks ∧ ∃ m, t.message = some m ∧ t.result = readResponse t.call.sectorCount m := by
  rw [networkReadSectors] at h
  by_cases hcount : t.call.sectorCount = 0
  · rw [if_pos hcount] at h
    exact .inl ⟨hcount, h, by rw [Turn.message, if_neg fun hasks => hasks.1.1 hcount]⟩
  rw [if_neg hcount] at h
  by_cases hconn : t.before.connected = false
  · rw [if_pos hconn] at h
    refine .inr (.inl ⟨hcount, hconn, ?_, h⟩)
    rw [Turn.message, if_neg fun hasks => by rw [hasks.1.2] at hconn; cases hconn]
  rw [if_neg hconn] at h
  have hasks : t.Asks := ⟨hcount, by simpa using hconn⟩
  by_cases hsent : t.call.sent = true
  · rw [if_neg (by simp [hsent])] at h
    cases hdecode : decodeResponse Sent.byte ((t.call.stream t.before).take t.call.delivered) with
    | mk r s' =>
      rw [hdecode] at h
      cases r with
      | error u =>
        refine .inr (.inr (.inl ⟨⟨hasks, ?_⟩, h⟩))
        rw [Turn.message, if_pos ⟨hasks, hsent⟩, hdecode]
      | ok m =>
        refine .inr (.inr (.inr ⟨hasks, m, ?_, h⟩))
        rw [Turn.message, if_pos ⟨hasks, hsent⟩, hdecode]
  · rw [if_pos (by simpa using hsent)] at h
    refine .inr (.inr (.inl ⟨⟨hasks, ?_⟩, h⟩))
    rw [Turn.message, if_neg fun hmessage => hsent hmessage.2]

theorem broke_iff (h : t.result = (networkReadSectors t.call t.before).1) :
    t.Broke ↔ t.result.status = inputErrNetwork := by
  rcases result_cases h with ⟨hcount, hresult, hnone⟩ | ⟨hcount, hconn, hnone, hresult⟩ |
    ⟨hbroke, hresult⟩ | ⟨hasks, m, hmessage, hresult⟩
  · rw [hresult]
    exact ⟨fun hb => absurd hcount hb.1.1, fun hs => absurd hs (by decide)⟩
  · rw [hresult]
    refine ⟨fun hb => ?_, fun hs => absurd hs (by decide)⟩
    rw [hb.1.2] at hconn
    cases hconn
  · rw [hresult]
    exact ⟨fun _ => rfl, fun _ => hbroke⟩
  · refine ⟨fun hb => ?_, fun hs => ?_⟩
    · rw [hb.2] at hmessage
      cases hmessage
    · rw [hresult] at hs
      by_cases hsectors : m.HasSectors
      · rw [readResponse_of_hasSectors hsectors] at hs
        dsimp only at hs
        split at hs <;> exact absurd hs (by decide)
      · rw [readResponse_of_not hsectors] at hs
        exact absurd hs (by decide)

/-- A turn with a message that brings sectors. -/
theorem result_of_sectors (h : t.result = (networkReadSectors t.call t.before).1)
    (hmessage : t.message = some m) (hsectors : m.HasSectors) :
    t.call.sectorCount ≠ 0 ∧ t.result =
      ⟨if m.reported = t.call.sectorCount.toNat then inputOk else inputErrReadFailed, m.data,
        m.reported⟩ := by
  rcases result_cases h with ⟨-, -, hnone⟩ | ⟨-, -, hnone, -⟩ | ⟨hbroke, -⟩ | ⟨hasks, m', hm, hr⟩
  · rw [hnone] at hmessage
    cases hmessage
  · rw [hnone] at hmessage
    cases hmessage
  · rw [hbroke.2] at hmessage
    cases hmessage
  · rw [hm, Option.some.injEq] at hmessage
    subst hmessage
    exact ⟨hasks.1, by rw [hr, readResponse_of_hasSectors hsectors]⟩

/-- A turn without one copies nothing, and succeeds only where nothing was asked for. -/
theorem result_of_no_sectors (h : t.result = (networkReadSectors t.call t.before).1)
    (hnone : ∀ m, t.message = some m → ¬ m.HasSectors) :
    t.result.copied = [] ∧ t.result.sectorsRead = 0 ∧
      (t.result.status = inputOk → t.call.sectorCount = 0) := by
  rcases result_cases h with ⟨hcount, hr, -⟩ | ⟨-, -, -, hr⟩ | ⟨-, hr⟩ | ⟨-, m, hm, hr⟩
  · rw [hr]
    exact ⟨rfl, rfl, fun _ => hcount⟩
  · rw [hr]
    exact ⟨rfl, rfl, fun hs => absurd hs (by decide)⟩
  · rw [hr]
    exact ⟨rfl, rfl, fun hs => absurd hs (by decide)⟩
  · rw [hr, readResponse_of_not (hnone m hm)]
    exact ⟨rfl, rfl, fun hs => absurd hs (by decide)⟩

/-! ## Runs -/

/-- Where nothing was left in the connection, the data of the message were sent for the call. -/
theorem message_fresh (hmessage : t.message = some m) (hempty : t.before.inFlight = []) :
    ∀ b ∈ m.data, t.before.requests ≤ b.request := by
  intro b hb
  rw [Turn.message] at hmessage
  split at hmessage
  · cases hdecode : decodeResponse Sent.byte ((t.call.stream t.before).take t.call.delivered) with
    | mk r s' =>
      rw [hdecode] at hmessage
      cases r with
      | error u => cases hmessage
      | ok m' =>
        cases hmessage
        have hstream := List.take_subset _ _ (decodeResponse_data hdecode hb)
        rw [ReadCall.stream, hempty, List.nil_append, List.mem_map] at hstream
        obtain ⟨byte, -, rfl⟩ := hstream
        exact Nat.le_refl _
  · cases hmessage

theorem faithful_of_trustworthy (h : Answered turns) (htrust : TrustworthyReads turns) :
    ServerFaithful turns := by
  intro j t m hj hmessage hsectors
  have ht := List.mem_of_getElem? hj
  obtain ⟨hcount, hresult⟩ := result_of_sectors (h t ht) hmessage hsectors
  have hok : m.reported = t.call.sectorCount.toNat → t.result.status = inputOk := fun hreported => by
    rw [hresult, if_pos hreported]
  refine ⟨?_, ?_, fun hreported => ?_, fun hreported hbroken b hb => ?_⟩
  · have hcopied := htrust.copied t ht
    rwa [hresult] at hcopied
  · have hread := htrust.reported t ht
    rwa [hresult] at hread
  · rcases htrust.complete t ht (hok hreported) with hzero | ⟨m', hm', hlength, -⟩
    · exact absurd hzero hcount
    · rw [hmessage, Option.some.injEq] at hm'
      rwa [hm']
  · obtain ⟨i, u, hij, hi, hbroke⟩ := hbroken
    refine htrust.fresh i j u t hij hi hj ?_ (hok hreported) b (by rwa [hresult])
    exact (broke_iff (h u (List.mem_of_getElem? hi))).1 hbroke

theorem trustworthy_of_faithful (h : Answered turns) (hfaith : ServerFaithful turns) :
    TrustworthyReads turns := by
  have hcases : ∀ {j t}, turns[j]? = some t →
      (∃ m, t.message = some m ∧ m.HasSectors ∧ t.result =
        ⟨if m.reported = t.call.sectorCount.toNat then inputOk else inputErrReadFailed, m.data,
          m.reported⟩ ∧
        FaithfulResponse t (∃ i : Nat, ∃ u : Turn, i < j ∧ turns[i]? = some u ∧ u.Broke) m) ∨
      t.result.copied = [] ∧ t.result.sectorsRead = 0 ∧
        (t.result.status = inputOk → t.call.sectorCount = 0) := by
    intro j t hj
    have ht := h t (List.mem_of_getElem? hj)
    by_cases hsome : ∃ m, t.message = some m ∧ m.HasSectors
    · obtain ⟨m, hmessage, hsectors⟩ := hsome
      exact .inl ⟨m, hmessage, hsectors, (result_of_sectors ht hmessage hsectors).2,
        hfaith j t m hj hmessage hsectors⟩
    · exact .inr (result_of_no_sectors ht fun m hm hs => hsome ⟨m, hm, hs⟩)
  constructor
  · intro t ht
    obtain ⟨j, hj⟩ := List.mem_iff_getElem?.1 ht
    rcases hcases hj with ⟨m, -, -, hresult, hf⟩ | ⟨hcopied, -, -⟩
    · rw [hresult]
      exact hf.fits
    · rw [hcopied]
      exact Nat.zero_le _
  · intro t ht
    obtain ⟨j, hj⟩ := List.mem_iff_getElem?.1 ht
    rcases hcases hj with ⟨m, -, -, hresult, hf⟩ | ⟨-, hread, -⟩
    · rw [hresult]
      exact hf.reported
    · rw [hread]
      exact Nat.zero_le _
  · intro t ht hok
    obtain ⟨j, hj⟩ := List.mem_iff_getElem?.1 ht
    rcases hcases hj with ⟨m, hmessage, -, hresult, hf⟩ | ⟨-, -, hzero⟩
    · rw [hresult] at hok
      refine .inr ⟨m, hmessage, hf.complete ?_, by rw [hresult]⟩
      by_contra hne
      rw [if_neg hne] at hok
      exact readFailed_ne_ok hok
    · exact .inl (hzero hok)
  · intro i j t u hij hi hj hfailed hok b hb
    have hbroken : ∃ i : Nat, ∃ u : Turn, i < j ∧ turns[i]? = some u ∧ u.Broke :=
      ⟨i, t, hij, hi, (broke_iff (h t (List.mem_of_getElem? hi))).2 hfailed⟩
    rcases hcases hj with ⟨m, -, -, hresult, hf⟩ | ⟨hcopied, -, -⟩
    · rw [hresult] at hok hb
      refine hf.fresh ?_ hbroken b hb
      by_contra hne
      rw [if_neg hne] at hok
      exact readFailed_ne_ok hok
    · rw [hcopied] at hb
      exact absurd hb List.not_mem_nil

/-- The reads of a run are trustworthy just where the server's responses are faithful. -/
theorem network_reads_trustworthy_iff (s : Network) (calls : List ReadCall) :
    TrustworthyReads (networkRun s calls) ↔ ServerFaithful (networkRun s calls) :=
  ⟨faithful_of_trustworthy (networkRun_answered s calls),
    trustworthy_of_faithful (networkRun_answered s calls)⟩

/-- An input just opened. -/
def openedNetwork : Network := ⟨true, [], 0, inputOk, ""⟩

/-- One sector is asked for; the server answers that it has read one, sends a single byte of
it, and closes. -/
def shortAnswer : ReadCall where
  sectorPos := 0
  sectorCount := 1
  sends := [some 7]
  answer := [0x08, 0x03, 0x10, 0x01, 0x1A, 0x01, 0x55]
  delivered := 7

/-- The single byte passes for a sector. -/
theorem network_read_short_answer :
    (networkReadSectors shortAnswer openedNetwork).1 = ⟨inputOk, [⟨0x55, 0⟩], 1⟩ ∧
      ¬ TrustworthyReads (networkRun openedNetwork [shortAnswer]) := by
  have hread : (networkReadSectors shortAnswer openedNetwork).1 = ⟨inputOk, [⟨0x55, 0⟩], 1⟩ := by
    rfl
  refine ⟨hread, fun htrust => ?_⟩
  have hmem : (⟨shortAnswer, openedNetwork, (networkReadSectors shortAnswer openedNetwork).1⟩ : Turn)
      ∈ networkRun openedNetwork [shortAnswer] := List.mem_cons_self
  have hcomplete := htrust.complete _ hmem
  rw [hread] at hcomplete
  rcases hcomplete rfl with hzero | ⟨m, -, hlength, hcopied⟩
  · exact absurd hzero (by decide)
  · rw [← hcopied] at hlength
    exact absurd hlength (by decide)

end DsdNexus.Sacd
