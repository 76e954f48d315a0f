import MyLibevent.Uri
import MyLibevent.HttpHeaders

/-!
# Queries

`evhttp_uriencode`, `evhttp_decode_uri_internal` and `evhttp_parse_query` of `http.c`. The decoder
counts the characters it has read in an `unsigned` and those it has written in an `int`.
-/

namespace MyLibevent

def uriencodeChar (spaceAsPlus : Bool) (c : UInt8) : Bytes :=
  if charIsUnreserved c then [c]
  else if c == byte ' ' && spaceAsPlus then [byte '+']
  else [byte '%', upperHexDigit (c.toNat / 16), upperHexDigit (c.toNat % 16)]

/-- `evhttp_uriencode`; a negative length stands for the whole string. -/
def evhttpUriencode (uri : Bytes) (len : Int) (spaceAsPlus : Bool) : Option Bytes :=
  if 0 ≤ len then some ((uri.take len.toNat).flatMap (uriencodeChar spaceAsPlus))
  else if evSsizeMax ≤ (cstring uri).length then none
  else some ((cstring uri).flatMap (uriencodeChar spaceAsPlus))

/-- The loop of `evhttp_decode_uri_internal` at the character `i`. The counter `j` of what has been
written is `INT_MAX - room`; it overflows if there is no room left. -/
def decodeUriLoop (uri : Bytes) (length : Nat) (decodePlusCtl : Int) : Nat → UInt32 → Bool → Option Bytes
  | 0, i, _ => if i.toNat < length then none else some []
  | room + 1, i, decodePlus =>
    if i.toNat < length then
      let c := uri.getD i.toNat 0
      if c == byte '?' then
        (decodeUriLoop uri length decodePlusCtl room (i + 1)
          (decodePlus || decide (decodePlusCtl < 0))).map (c :: ·)
      else if c == byte '+' && decodePlus then
        (decodeUriLoop uri length decodePlusCtl room (i + 1) decodePlus).map (byte ' ' :: ·)
      else if (i + 2).toNat < length && c == byte '%' && isXdigit (uri.getD (i + 1).toNat 0) &&
          isXdigit (uri.getD (i + 2).toNat 0) then
        let tmp := [uri.getD (i + 1).toNat 0, uri.getD (i + 2).toNat 0]
        (decodeUriLoop uri length decodePlusCtl room (i + 3) decodePlus).map (UInt8.ofInt (strtoll 16 tmp).1 :: ·)
      else (decodeUriLoop uri length decodePlusCtl room (i + 1) decodePlus).map (c :: ·)
    else some []

/-- `evhttp_decode_uri_internal`: what is written to `ret`. The result is `none` if a counter
overflows. -/
def evhttpDecodeUriInternal (uri : Bytes) (length : Nat) (decodePlusCtl : Int) : Option Bytes :=
  decodeUriLoop uri length decodePlusCtl (2 ^ 31 - 1) 0 (decodePlusCtl == 1)

inductive QueryError where
  /-- The return value −1; the list of headers is empty. -/
  | malformed
  /-- A counter has overflowed. -/
  | overflow
  deriving DecidableEq

lemma length_strsep {sep : UInt8} {s a b : Bytes} (h : strsep sep s = (a, some b)) : b.length < s.length := by
  unfold strsep at h
  have hle := (List.dropWhile_suffix (l := s) (· != sep)).length_le
  split at h
  · cases h
  · rename_i hdrop
    cases h
    rw [hdrop, List.length_cons] at hle
    omega

def parseArguments (headers : List HttpHeader) (p : Bytes) : Except QueryError (List HttpHeader) :=
  if p = [] then .ok headers
  else
    match _h : strsep (byte '&') p with
    | (argument, next) =>
      match strsep (byte '=') argument with
      | (_, none) => .error .malformed
      | (key, some value) =>
        if key = [] then .error .malformed
        else
          match evhttpDecodeUriInternal value value.length 1 with
          | none => .error .overflow
          | some decoded =>
            match next with
            | none => .ok (headers ++ [(key, cstring decoded)])
            | some p => parseArguments (headers ++ [(key, cstring decoded)]) p
termination_by p.length
decreasing_by exact length_strsep _h

variable (inetPton6 : Bytes → Bool)

def evhttpParseQueryImpl (str : Bytes) (isWholeUri : Bool) : Except QueryError (List HttpHeader) :=
  if isWholeUri then
    match evhttpUriParse inetPton6 str with
    | none => .error .malformed
    | some uri => parseArguments [] (uri.query.getD [])
  else parseArguments [] str

def evhttpParseQuery (uri : Bytes) : Except QueryError (List HttpHeader) :=
  evhttpParseQueryImpl inetPton6 uri true

def evhttpParseQueryStr (uri : Bytes) : Except QueryError (List HttpHeader) :=
  evhttpParseQueryImpl inetPton6 uri false

end MyLibevent
