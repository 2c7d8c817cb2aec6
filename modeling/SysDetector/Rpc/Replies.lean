import SysDetector.Library.Wire

namespace SysDetector.Rpc
open CLib

/-! ## The worker -/

/-- The buffer of `send_response`, of which the bytes before the terminator are sent. -/
def responseBuffer (code : Int32) : CharBuf 16 := snprintf 16 (decimalInt code.toInt)

/-! ## The server -/

structure RpcResponse where
  code : Int32
  body : String
deriving DecidableEq

def receivedCode (recvStr : String) : Int32 := (parseI32 (lit (trimText recvStr))).getD 1

/-- The end of `handle_command`: `none` for a response that is not UTF-8. The body is what it has
read from the output file. -/
def rpcResponse (response : Bytes) (body : String) : Option RpcResponse :=
  (fromUtf8 response).map fun recvStr => ⟨receivedCode recvStr, body⟩

def responseFrame (response : RpcResponse) : Bytes :=
  let body := lit response.body
  beBytes 4 response.code.toUInt32.toNat ++ beBytes 4 (UInt32.ofNat body.length).toNat ++ body

/-! ## The client -/

structure CliResponse where
  responseCode : Int32
  body : Bytes
deriving DecidableEq

def readResponse (stream : Bytes) : Option (CliResponse × Bytes) := do
  let (buf, stream) ← readExact 4 stream
  let responseCode := (UInt32.ofNat (beNat buf)).toInt32
  let (bodyLenBuf, stream) ← readExact 4 stream
  let bodyLen := beNat bodyLenBuf
  if 0 < bodyLen then
    let (body, stream) ← readExact bodyLen stream
    some (⟨responseCode, body⟩, stream)
  else some (⟨responseCode, []⟩, stream)

def CliResponse.printed (response : CliResponse) : Option String := fromUtf8 response.body

def CliResponse.result (response : CliResponse) : Except Bytes Unit :=
  if response.responseCode ≠ 0 then
    .error (lit "server returned error code " ++ decimalInt response.responseCode.toInt)
  else .ok ()

def delivered (response : Bytes) (body : String) (rest : Bytes) : Option (CliResponse × Bytes) :=
  (rpcResponse response body).bind fun response => readResponse (responseFrame response ++ rest)

theorem responseBuffer_text (code : Int32) :
    (responseBuffer code).text = decimalInt code.toInt := by
  have fits := length_decimalInt_le code
  show (cstr (decimalInt code.toInt)).take 15 = decimalInt code.toInt
  rw [cstr_of_notMem (zero_notMem_decimalInt _), List.take_of_length_le (by omega)]

theorem rpcResponse_decimal (code : Int32) (body : String) :
    rpcResponse (decimalInt code.toInt) body = some ⟨code, body⟩ := by
  rw [← lit_decimalText, rpcResponse, fromUtf8_lit, Option.map_some, receivedCode,
    trimText_of_solid fun c => decimalText_solid, lit_decimalText, parseI32_decimalInt,
    Option.getD_some]

theorem readResponse_frame {response : RpcResponse} (short : (lit response.body).length < 2 ^ 32)
    (rest : Bytes) : readResponse (responseFrame response ++ rest) =
      some (⟨response.code, lit response.body⟩, rest) := by
  obtain ⟨code, body⟩ := response
  have codeKept : (UInt32.ofNat (beNat (beBytes 4 code.toUInt32.toNat))).toInt32 = code := by
    rw [beNat_beBytes_of_lt code.toUInt32.toNat_lt, UInt32.ofNat_toNat]
    rfl
  have lengthKept : beNat (beBytes 4 (UInt32.ofNat (lit body).length).toNat) = (lit body).length := by
    rw [beNat_beBytes_of_lt (UInt32.toNat_lt _), UInt32.toNat_ofNat', Nat.mod_eq_of_lt short]
  unfold readResponse responseFrame
  simp only [List.append_assoc, readExact_append (length_beBytes 4 _), Option.bind_eq_bind,
    Option.bind_some, codeKept, lengthKept]
  by_cases empty : (lit body).length = 0
  · rw [List.length_eq_zero_iff.mp empty]
    rfl
  · rw [if_pos (Nat.pos_of_ne_zero empty), readExact_append rfl, Option.bind_some]

theorem result_error_iff (response : CliResponse) :
    response.result ≠ .ok () ↔ response.responseCode ≠ 0 := by
  unfold CliResponse.result
  split_ifs with failed <;> simp [failed]

/-- Code and body survive the whole way: the decimal text fits the buffer of the worker, the server
reads the same code back, and the client takes exactly the frame from the stream, gets that code and
body out of it and reports an error exactly when the code is not zero. -/
theorem response_survives (code : Int32) (body : String) (rest : Bytes)
    (short : (lit body).length < 2 ^ 32) :
    (responseBuffer code).text = decimalInt code.toInt ∧
      rpcResponse (responseBuffer code).text body = some ⟨code, body⟩ ∧
      ∃ response, delivered (responseBuffer code).text body rest = some (response, rest) ∧
        response.responseCode = code ∧ response.body = lit body ∧
        response.printed = some body ∧ (response.result ≠ .ok () ↔ code ≠ 0) := by
  have sent := responseBuffer_text code
  have read := rpcResponse_decimal code body
  rw [delivered, sent, read]
  refine ⟨rfl, rfl, ⟨code, lit body⟩, readResponse_frame short rest, rfl, rfl, fromUtf8_lit body, ?_⟩
  exact result_error_iff ⟨code, lit body⟩

theorem response_survives_listing :
    (responseBuffer (-2)).text = decimalInt (-2 : Int32).toInt ∧
      rpcResponse (responseBuffer (-2)).text "Num\tID\n" = some ⟨-2, "Num\tID\n"⟩ ∧
      ∃ response, delivered (responseBuffer (-2)).text "Num\tID\n" [] = some (response, []) ∧
        response.responseCode = -2 ∧ response.body = lit "Num\tID\n" ∧
        response.printed = some "Num\tID\n" ∧ (response.result ≠ .ok () ↔ (-2 : Int32) ≠ 0) :=
  response_survives (-2) "Num\tID\n" [] (by decide)

end SysDetector.Rpc
