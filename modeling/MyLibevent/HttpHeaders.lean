import MyLibevent.Lines

/-!
# HTTP headers

Writing and parsing header blocks in `http.c`. Keys and values are C strings. The list of
headers of a request is a list of pairs in the order of the queue; allocation succeeds.
-/

namespace MyLibevent

abbrev HttpHeader := Bytes × Bytes

/-- `enum message_read_status`. -/
inductive MessageReadStatus where
  | allDataRead
  | moreDataExpected
  | dataCorrupted
  | requestCanceled
  | dataTooLong
  deriving DecidableEq

/-- `evhttp_header_is_valid_value`: `strpbrk` to the next CR or LF, `strspn` over the run of
them, and a blank must follow. -/
def headerIsValidValue (value : Bytes) : Bool :=
  match _h : value.dropWhile (fun c => !isCrlf c) with
  | [] => true
  | _ :: p =>
    match _h' : p.dropWhile isCrlf with
    | [] => false
    | c' :: p' => isBlank c' && headerIsValidValue (c' :: p')
termination_by value.length
decreasing_by
  have h1 := (List.dropWhile_suffix (l := value) (fun c => !isCrlf c)).length_le
  have h2 := (List.dropWhile_suffix (l := p) isCrlf).length_le
  rw [_h, List.length_cons] at h1
  rw [_h'] at h2
  omega

variable (headers : List HttpHeader)

def evhttpAddHeader (key value : Bytes) : Option (List HttpHeader) :=
  if byte '\r' ∈ key ∨ byte '\n' ∈ key then none
  else if !headerIsValidValue value then none
  else some (headers ++ [(key, value)])

def appendToLastHeader (line : Bytes) : Option (List HttpHeader) :=
  match headers.getLast? with
  | none => none
  | some header =>
    some (headers.dropLast ++ [(header.1, header.2 ++ byte ' ' :: rtrimLws (ltrimLws line))])

def parseHeaderLine (line : Bytes) : Option (List HttpHeader) :=
  match strsep (byte ':') line with
  | (_, none) => none
  | (skey, some svalue) =>
    evhttpAddHeader headers skey (rtrimLws (svalue.dropWhile (· == byte ' ')))

/-- The state of the header parser between two lines. -/
structure HeaderParse where
  inputHeaders : List HttpHeader
  headersSize : Nat
  buffer : Bytes

/-- `evhttp_parse_headers_`. The limit is `max_headers_size`, absent for a request without a
connection. -/
def evhttpParseHeaders (limit : Option Nat) (req : HeaderParse) : MessageReadStatus × HeaderParse :=
  match _h : evbufferReadln req.buffer with
  | none =>
    if limit.any (· < req.headersSize + req.buffer.length) then (.dataTooLong, req)
    else (.moreDataExpected, req)
  | some (line, rest) =>
    let req' : HeaderParse := ⟨req.inputHeaders, req.headersSize + line.length, rest⟩
    if limit.any (· < req'.headersSize) then (.dataTooLong, req')
    else
      match cstring line with
      | [] => (.allDataRead, req')
      | c :: line =>
        let added :=
          if isBlank c then appendToLastHeader req.inputHeaders (c :: line)
          else parseHeaderLine req.inputHeaders (c :: line)
        match added with
        | none => (.dataCorrupted, req')
        | some headers => evhttpParseHeaders limit { req' with inputHeaders := headers }
termination_by req.buffer.length
decreasing_by exact length_evbufferReadln _h

/-- The header lines and the empty line that `evhttp_make_header` writes. -/
def makeHeaderBlock : Bytes :=
  (headers.flatMap fun header =>
    evbufferAddPrintf (header.1 ++ bytes ": " ++ header.2 ++ bytes "\r\n")) ++ bytes "\r\n"

end MyLibevent
