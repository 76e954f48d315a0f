import MyLibevent.Proofs.ByteBuff
import MyLibevent.ServerCommEngine

/-!
# Encoding and decoding of the messages between servers

The encoder stores the lengths in the order of the machine, the decoder reads them in the order of the
network; the places of all parts agree. The decoders take the declared lengths as they are.
-/

namespace MyLibevent.Proofs

open ByteBuff ServerCommEngine List ByteBlock

variable {α β : Type} {little : Bool}

lemma MessageCodec.parse_serialize (codec : MessageCodec α) (message : α) :
    codec.parse (codec.serialize message) = some message := (codec.inverse _ _).mpr rfl

section Wire

lemma readVarint_varint (rest : Bytes) (bytes : Nat) {n : Nat} (hn : n < 128 ^ (bytes + 1)) :
    readVarint (bytes + 1) (varint (bytes + 1) n ++ rest) = some (n, rest) := by
  induction bytes generalizing n with
  | zero =>
    rw [Nat.zero_add, pow_one] at hn
    have hbyte : (UInt8.ofNat n).toNat = n := UInt8.toNat_ofNat_of_lt (by simp only [UInt8.size]; omega)
    rw [varint, if_pos hn, singleton_append, readVarint, hbyte, if_pos hn]
  | succ bytes ih =>
    rw [varint]
    split_ifs with hlow
    · have hbyte : (UInt8.ofNat n).toNat = n := UInt8.toNat_ofNat_of_lt (by simp only [UInt8.size]; omega)
      rw [singleton_append, readVarint, hbyte, if_pos hlow]
    · have hbyte : (UInt8.ofNat (n % 128 + 128)).toNat = n % 128 + 128 :=
        UInt8.toNat_ofNat_of_lt (by simp only [UInt8.size]; omega)
      have hrest := ih (n := n / 128) (by rw [pow_succ] at hn; omega)
      rw [cons_append, readVarint, hbyte, if_neg (by omega), hrest, Option.map_some]
      simp only [Option.some.injEq, Prod.mk.injEq, and_true]
      omega

def fieldBytes (fields : List (UInt8 × BitVec 64)) : Bytes := fields.flatMap fun field => intField field.1 field.2

variable {format : WireFormat} {fields : List (UInt8 × BitVec 64)}
  (hallowed : ∀ field ∈ fields, format.allowed field.1 field.2.toNat)
include hallowed

lemma readFields_fieldBytes {fuel : Nat} (hfuel : fields.length ≤ fuel) :
    readFields format.allowed fuel (fieldBytes fields) = some (fields.map fun field => (field.1, field.2.toNat)) := by
  induction fields generalizing fuel with
  | nil => cases fuel <;> rfl
  | cons field fields ih =>
    obtain ⟨hfirst, hallowed⟩ := forall_mem_cons.1 hallowed
    cases fuel with
    | zero => cases hfuel
    | succ fuel =>
      have hvalue := readVarint_varint (fieldBytes fields) 9
        (show field.2.toNat < 128 ^ (9 + 1) from field.2.isLt.trans (by norm_num))
      have hbytes : fieldBytes (field :: fields) = field.1 :: (varint 10 field.2.toNat ++ fieldBytes fields) := rfl
      rw [hbytes, readFields, hvalue]
      simp only [hfirst, if_true, ih hallowed (Nat.le_of_succ_le_succ hfuel), Option.map_some, map_cons]

lemma accepts_fieldBytes (hrequired : format.required ⊆ fields.map Prod.fst) :
    format.accepts (fieldBytes fields) := by
  have hlength : fields.length ≤ (fieldBytes fields).length := by
    clear hallowed hrequired
    induction fields with
    | nil => rfl
    | cons field fields ih =>
      have hbytes : fieldBytes (field :: fields) = field.1 :: (varint 10 field.2.toNat ++ fieldBytes fields) := rfl
      rw [hbytes, length_cons, length_cons, length_append]
      omega
  unfold WireFormat.accepts WireFormat.fields
  rw [readFields_fieldBytes hallowed hlength]
  simp only [Option.any_some, map_map, all_eq_true, contains_iff_mem]
  exact fun tag htag => hrequired htag

end Wire

section Encoding

variable {memory : Nat → UInt8} {len : BitVec 16} {bytes : Bytes}

lemma finishStream_eq (hlen : len.toNat = 4 + bytes.length) :
    ∃ memory', finishStream little (write memory 4 bytes) len =
        (memory', BitVec.ofNat 16 ((len.toNat + 7) / 8 * 8)) ∧
      read memory' 0 (4 + bytes.length) =
        stored little 2 ((len.toNat + 7) / 8 * 8) ++
          (stored little 2 ((len.toNat + 7) / 8 * 8 - len.toNat) ++ bytes) := by
  have hadd : (if 0 < len.toNat % 8 then 8 - len.toNat % 8 else 0) = (len.toNat + 7) / 8 * 8 - len.toNat := by
    split_ifs <;> omega
  have hsum : len.toNat + ((len.toNat + 7) / 8 * 8 - len.toNat) = (len.toNat + 7) / 8 * 8 := by omega
  unfold finishStream storeUnShort
  dsimp only
  rw [hadd, hsum]
  refine ⟨_, rfl, ?_⟩
  obtain ⟨first, hfirst⟩ : ∃ first, stored little 2 ((len.toNat + 7) / 8 * 8) = first := ⟨_, rfl⟩
  obtain ⟨second, hsecond⟩ : ∃ second, stored little 2 ((len.toNat + 7) / 8 * 8 - len.toNat) = second := ⟨_, rfl⟩
  have hlength : first.length = 2 ∧ second.length = 2 := by
    rw [← hfirst, ← hsecond, length_stored, length_stored]
    exact ⟨rfl, rfl⟩
  have hwrites := write_append (write memory 4 bytes) 0 first second
  rw [hlength.1, Nat.zero_add] at hwrites
  have hshort : (first ++ second).length = 4 := by
    rw [length_append, hlength.1, hlength.2]
  have hread := read_write_prepend (write memory 4 bytes) 0 bytes.length (first ++ second)
  rw [hshort, Nat.zero_add, read_write, append_assoc] at hread
  rw [hfirst, hsecond, hwrites]
  exact hread

end Encoding

section Message

variable (head : MessageCodec α) (body : MessageCodec β) (msg : ProxyMessage α β)

def partBytes (little : Bool) : Bytes :=
  stored little 2 (head.serialize msg.msgHead).length ++ (head.serialize msg.msgHead ++
    (match msg.msgPara with
      | none => []
      | some msgPara => stored little 2 (body.serialize msgPara).length ++ body.serialize msgPara))

lemma length_partBytes : 4 + (partBytes head body msg little).length = contentSize head body msg := by
  unfold partBytes contentSize
  cases msg.msgPara with
  | none =>
    simp
    omega
  | some msgPara =>
    simp
    omega

def streamBytes (little : Bool) : Bytes :=
  stored little 2 (packageSize head body msg) ++
    (stored little 2 (packageSize head body msg - contentSize head body msg) ++ partBytes head body msg little)

lemma convertMsgToStream_parts (memory : Nat → UInt8) {buffLen : BitVec 16}
    (hfit : packageSize head body msg ≤ buffLen.toNat) :
    ∃ len : BitVec 16, len.toNat = contentSize head body msg ∧
      convertMsgToStream little head body msg memory buffLen =
        .ok (finishStream little (write memory 4 (partBytes head body msg little)) len) := by
  have hlt := buffLen.isLt
  obtain ⟨msgHead, msgPara⟩ := msg
  unfold packageSize at hfit
  unfold contentSize at hfit ⊢
  unfold convertMsgToStream storeUnShort partBytes
  cases msgPara with
  | none =>
    dsimp only at hfit ⊢
    refine ⟨6 + BitVec.ofNat 16 (head.serialize msgHead).length, ?_, ?_⟩
    · simp
      omega
    · rw [if_neg (by omega), if_neg (by simp; omega), write_behind _ _ _ _ (by simp), append_nil]
  | some msgPara =>
    dsimp only at hfit ⊢
    have hlen : ((6 : BitVec 16) + BitVec.ofNat 16 (head.serialize msgHead).length + 2).toNat =
        8 + (head.serialize msgHead).length := by
      simp
      omega
    refine ⟨6 + BitVec.ofNat 16 (head.serialize msgHead).length + 2 +
      BitVec.ofNat 16 (body.serialize msgPara).length, ?_, ?_⟩
    · rw [BitVec.toNat_add, hlen, BitVec.toNat_ofNat]
      omega
    · rw [if_neg (by omega), if_neg (by simp; omega), hlen, if_neg (by omega),
        write_behind _ _ _ _ (show 8 + _ = 6 + _ + _ by simp; omega), write_behind _ _ _ _ (by simp),
        write_behind _ _ _ _ (by simp)]

lemma convertMsgToStream_eq (memory : Nat → UInt8) {buffLen : BitVec 16}
    (hfit : packageSize head body msg ≤ buffLen.toNat) :
    ∃ memory', convertMsgToStream little head body msg memory buffLen =
        .ok (memory', BitVec.ofNat 16 (packageSize head body msg)) ∧
      read memory' 0 (contentSize head body msg) = streamBytes head body msg little := by
  obtain ⟨len, hlen, hparts⟩ := @convertMsgToStream_parts α β little head body msg memory buffLen hfit
  have hsize := @length_partBytes α β little head body msg
  obtain ⟨memory', hfinish, hread⟩ := @finishStream_eq little memory len _ (hlen.trans hsize.symm)
  rw [hlen] at hfinish hread
  rw [hsize] at hread
  exact ⟨memory', by rw [hparts, hfinish]; rfl, hread⟩

end Message

section Decoding

variable {messages : ServerMessages α β} {msg : ProxyMessage α β} {factory : Bool} {buff : ByteBuff}
  {rest : Bytes} {k n : Nat}

lemma Upcoming.lengthAt (little : Bool) (h : Upcoming (buff.readLen k) (netBytes 2 n ++ rest))
    (hn : n < 2 ^ 16) :
    ServerCommEngine.lengthAt little buff k = BitVec.ofNat 16 n ∧ Upcoming (buff.readLen (k + 2)) rest := by
  obtain ⟨hread, hrest⟩ := h.readUnShort hn little
  rw [readLen_readLen] at hrest
  exact ⟨congrArg Prod.fst hread, hrest⟩

lemma readUnShort_readLen (k : Nat) : (buff.readLen k).readUnShort little =
    (lengthAt little buff k, buff.readLen (k + 2)) := by
  rw [← readLen_readLen]
  rfl

lemma convertStreamToProxy_eq (head : MessageCodec α) : convertStreamToProxy little head buff =
    if 8 ≤ (lengthAt little buff 2).toNat then .error (-3)
    else match head.parse (read buff.data (buff.readIndex + 6) (headLen little buff)) with
      | none => .error (-4)
      | some msgHead => .ok (msgHead, leftLen little buff, buff.readLen (6 + headLen little buff)) := by
  have hfirst : buff.readUnShort little = (lengthAt little buff 0, buff.readLen 2) := rfl
  unfold convertStreamToProxy
  simp only [hfirst, readUnShort_readLen, readLen_readLen]
  rfl

lemma toNat_sub_two (x : BitVec 16) : (x - 2).toNat = (x.toNat + 2 ^ 16 - 2) % 2 ^ 16 := by
  rw [BitVec.toNat_sub, show (2 : BitVec 16).toNat = 2 by rfl]
  omega

lemma toNat_leftLen : (leftLen little buff).toNat = ((lengthAt little buff 0).toNat + 3 * 2 ^ 16 - 6 -
    (lengthAt little buff 2).toNat - headLen little buff) % 2 ^ 16 := by
  unfold leftLen headLen
  rw [BitVec.toNat_sub, toNat_sub_two, BitVec.toNat_sub, toNat_sub_two, toNat_sub_two]
  omega

/-- What `ConvertStreamToMsg` finds of the body. -/
def ParaDecoded (little : Bool) (messages : ServerMessages α β) (factory : Bool) (buff : ByteBuff)
    (msg : ProxyMessage α β) : Prop :=
  let paraLen := lengthAt little buff (6 + headLen little buff)
  if leftLen little buff = 0 then msg.msgPara = none
  else leftLen little buff - 2 = paraLen ∧
    if factory = false then msg.msgPara = none
    else ∃ body msgPara, messages.createMessage (messages.messageId msg.msgHead) = some body ∧
      body.parse (read buff.data (buff.readIndex + (6 + headLen little buff + 2)) paraLen.toNat) = some msgPara ∧
      msg.msgPara = some msgPara

lemma convertStreamToMsg_ok_iff :
    (∃ buff', convertStreamToMsg little messages factory buff = .ok (msg, buff')) ↔
      (lengthAt little buff 2).toNat < 8 ∧
      messages.head.parse (read buff.data (buff.readIndex + 6) (headLen little buff)) = some msg.msgHead ∧
      ParaDecoded little messages factory buff msg := by
  unfold convertStreamToMsg
  rw [convertStreamToProxy_eq]
  obtain ⟨msgHead, msgPara⟩ := msg
  by_cases hadd : 8 ≤ (lengthAt little buff 2).toNat
  · rw [if_pos hadd]
    exact iff_of_false (fun ⟨_, h⟩ => by cases h) fun h => by omega
  rw [if_neg hadd]
  cases hparse : messages.head.parse (read buff.data (buff.readIndex + 6) (headLen little buff)) with
  | none => exact iff_of_false (fun ⟨_, h⟩ => by cases h) fun h => nomatch h.2.1
  | some parsed =>
    change (∃ buff', convertPara little messages factory parsed (leftLen little buff)
      (buff.readLen (6 + headLen little buff)) = .ok (⟨msgHead, msgPara⟩, buff')) ↔ _
    unfold convertPara ParaDecoded
    simp only [readUnShort_readLen]
    have hadd' := Nat.lt_of_not_le hadd
    by_cases hzero : leftLen little buff = 0
    · simp [hzero, hadd', eq_comm]
    rw [if_neg hzero, if_neg hzero]
    by_cases hlen : leftLen little buff - 2 = lengthAt little buff (6 + headLen little buff)
    · rw [if_neg (not_not.mpr hlen), and_iff_right hlen, and_iff_right hadd']
      by_cases hfactory : factory = false
      · simp [hfactory, eq_comm]
      · rw [if_neg hfactory, if_neg hfactory]
        constructor
        · rintro ⟨buff', h⟩
          split at h
          · cases h
          · rename_i body hbody
            split at h
            · cases h
            · rename_i para hpara
              cases h
              exact ⟨rfl, body, para, hbody, hpara, rfl⟩
        · rintro ⟨hhead, body, para, hbody, hpara, rfl⟩
          cases hhead
          rw [hbody]
          dsimp only [readLen]
          rw [hpara]
          exact ⟨_, rfl⟩
    · rw [if_pos hlen]
      exact iff_of_false (fun ⟨_, h⟩ => nomatch h) fun h => hlen h.2.2.1

end Decoding

section RoundTrip

variable {messages : ServerMessages α β} {body : MessageCodec β} {msg : ProxyMessage α β}
  {factory : Bool} {buff buff' : ByteBuff} {buffLen : BitVec 16}

lemma upcoming_received {memory : Nat → UInt8} {bytes : Bytes} {len : Nat} (hle : bytes.length ≤ len)
    (hread : read memory 0 bytes.length = bytes) :
    Upcoming ⟨write ByteBuff.clear.data 0 (read memory 0 len), 0, len⟩ bytes := by
  unfold Upcoming
  have hall := read_write ByteBuff.clear.data 0 (read memory 0 len)
  rw [length_read] at hall
  rw [← take_read _ _ hle, hall, take_read _ _ hle, hread]

lemma machineOrder_self {n : Nat} (h : machineOrder true n = n) : n % 257 = 0 := by
  unfold machineOrder at h
  rw [if_pos rfl] at h
  omega

lemma upcoming_stream {memory' : Nat → UInt8}
    (hfit : packageSize messages.head body msg ≤ buffLen.toNat)
    (hread : read memory' 0 (contentSize messages.head body msg) = streamBytes messages.head body msg little) :
    Upcoming ⟨write ByteBuff.clear.data 0
        (read memory' 0 (packageSize messages.head body msg)), 0, packageSize messages.head body msg⟩
      (netBytes 2 (machineOrder little (packageSize messages.head body msg)) ++
        (netBytes 2 (machineOrder little
          (packageSize messages.head body msg - contentSize messages.head body msg)) ++
        (netBytes 2 (machineOrder little (messages.head.serialize msg.msgHead).length) ++
        (messages.head.serialize msg.msgHead ++ (match msg.msgPara with
          | none => []
          | some msgPara => netBytes 2 (machineOrder little (body.serialize msgPara).length) ++
              body.serialize msgPara))))) := by
  have hpackage := packageSize.eq_1 messages.head body msg
  have hsize := @length_partBytes α β little messages.head body msg
  have hlength : (streamBytes messages.head body msg little).length = contentSize messages.head body msg := by
    rw [streamBytes, length_append, length_append, length_stored, length_stored]
    omega
  have hupcoming := @upcoming_received memory' (streamBytes messages.head body msg little)
    (packageSize messages.head body msg) (by omega) (by rw [hlength]; exact hread)
  unfold partBytes at hsize
  unfold streamBytes partBytes at hupcoming
  rw [stored_two little (by omega), stored_two little (by omega)] at hupcoming
  cases hpara : msg.msgPara with
  | none =>
    rw [hpara] at hupcoming hsize
    simp only [length_append, length_stored, length_nil] at hsize
    rw [stored_two little (by omega)] at hupcoming
    exact hupcoming
  | some msgPara =>
    rw [hpara] at hupcoming hsize
    simp only [length_append, length_stored] at hsize
    dsimp only at hupcoming ⊢
    rw [stored_two little (by omega), stored_two little (by omega)] at hupcoming
    exact hupcoming

/-- The lengths as the decoder finds them in the received bytes. -/
lemma lengthAt_stream {T A H : Nat} (little : Bool) (hT : T < 2 ^ 16) (hA : A < 2 ^ 16) (hH : H < 2 ^ 16)
    {headBytes rest : Bytes}
    (h : Upcoming buff (netBytes 2 T ++ (netBytes 2 A ++ (netBytes 2 H ++ (headBytes ++ rest))))) :
    lengthAt little buff 0 = BitVec.ofNat 16 T ∧ lengthAt little buff 2 = BitVec.ofNat 16 A ∧
    headLen little buff = H ∧ read buff.data (buff.readIndex + 6) headBytes.length = headBytes ∧
    Upcoming (buff.readLen (6 + headBytes.length)) rest := by
  obtain ⟨htotal, h⟩ := Upcoming.lengthAt (k := 0) little h hT
  obtain ⟨hadd, h⟩ := h.lengthAt little hA
  obtain ⟨hhead, h⟩ := h.lengthAt little hH
  obtain ⟨hread, h⟩ := h.split
  rw [readLen_readLen] at h
  refine ⟨htotal, hadd, ?_, hread, h⟩
  rw [headLen, hhead, BitVec.toNat_ofNat, Nat.mod_eq_of_lt hH]

variable (memory : Nat → UInt8) (hfactory : messages.createMessage (messages.messageId msg.msgHead) = some body)
  (hfit : packageSize messages.head body msg ≤ buffLen.toNat)

include hfactory hfit

lemma not_roundTrip_littleEndian : ¬RoundTrip true messages body msg memory buffLen := by
  rintro ⟨memory', len, hencode, htotal, hdecode⟩
  have hpackage := packageSize.eq_1 messages.head body msg
  obtain ⟨memory'', hencode', hread⟩ := @convertMsgToStream_eq α β true messages.head body msg memory buffLen hfit
  obtain ⟨rfl, rfl⟩ : memory'' = memory' ∧ BitVec.ofNat 16 (packageSize messages.head body msg) = len := by
    simpa [hencode'] using hencode
  have hupcoming := upcoming_stream hfit hread
  rw [BitVec.toNat_ofNat, Nat.mod_eq_of_lt (by omega)] at htotal hdecode
  have hsize := contentSize.eq_1 messages.head body msg
  generalize packageSize messages.head body msg = T at hupcoming hpackage htotal hdecode hfit
  generalize contentSize messages.head body msg = C at hupcoming hpackage hsize
  generalize hheadBytes : messages.head.serialize msg.msgHead = headBytes at hupcoming hsize
  obtain ⟨hfirst, -, hhead, -, hrest⟩ := lengthAt_stream true (machineOrder_lt true (by omega))
    (machineOrder_lt true (by omega)) (machineOrder_lt true (by omega)) hupcoming
  -- the total length and the length of the head are the same with their bytes swapped
  have hT257 : T % 257 = 0 := by
    apply machineOrder_self
    have hnat := congrArg BitVec.toNat (hfirst.symm.trans htotal)
    rwa [BitVec.toNat_ofNat, BitVec.toNat_ofNat, Nat.mod_eq_of_lt (machineOrder_lt true (by omega)),
      Nat.mod_eq_of_lt (by omega)] at hnat
  obtain ⟨-, hparse, hpara⟩ := convertStreamToMsg_ok_iff.mp hdecode
  have hlength := congrArg List.length ((messages.head.inverse _ _).mp hparse)
  rw [hheadBytes, length_read, hhead] at hlength
  have hh257 := machineOrder_self hlength.symm
  cases hmsgPara : msg.msgPara with
  | none =>
    rw [hmsgPara] at hsize
    dsimp only at hsize
    omega
  | some msgPara =>
    rw [hmsgPara] at hsize hrest
    dsimp only at hsize hrest
    unfold ParaDecoded at hpara
    rw [hmsgPara, hhead, ← hlength, (hrest.lengthAt true (machineOrder_lt true (by omega))).1] at hpara
    simp only [reduceCtorEq, Bool.true_eq_false, if_false, Option.some.injEq] at hpara
    split_ifs at hpara
    obtain ⟨-, body', para, hbody', hparse', rfl⟩ := hpara
    obtain rfl : body = body' := Option.some.inj (hfactory.symm.trans hbody')
    have hlength' := congrArg List.length ((body.inverse _ _).mp hparse')
    rw [length_read, BitVec.toNat_ofNat, Nat.mod_eq_of_lt (machineOrder_lt true (by omega))] at hlength'
    have hb257 := machineOrder_self hlength'.symm
    omega

lemma roundTrip_bigEndian : RoundTrip false messages body msg memory buffLen := by
  have hbuff : buffLen.toNat < 2 ^ 16 := buffLen.isLt
  have hpackage := packageSize.eq_1 messages.head body msg
  obtain ⟨memory', hencode, hread⟩ := @convertMsgToStream_eq α β false messages.head body msg memory buffLen hfit
  have hupcoming := upcoming_stream hfit hread
  refine ⟨memory', _, hencode, ?_⟩
  rw [BitVec.toNat_ofNat, Nat.mod_eq_of_lt (by omega)]
  have hsize := contentSize.eq_1 messages.head body msg
  generalize packageSize messages.head body msg = T at hupcoming hpackage hfit ⊢
  generalize contentSize messages.head body msg = C at hupcoming hpackage hsize
  generalize hheadBytes : messages.head.serialize msg.msgHead = headBytes at hupcoming hsize
  obtain ⟨buff, hbuff'⟩ : ∃ buff : ByteBuff,
    (⟨write ByteBuff.clear.data 0 (read memory' 0 T), 0, T⟩ : ByteBuff) = buff := ⟨_, rfl⟩
  rw [hbuff'] at hupcoming ⊢
  simp only [machineOrder, Bool.false_eq_true, if_false] at hupcoming
  obtain ⟨hfirst, hadd, hhead, hread', hrest⟩ :=
    lengthAt_stream false (by omega) (by omega) (by omega) hupcoming
  have hleft : leftLen false buff = BitVec.ofNat 16 (C - 6 - headBytes.length) := by
    apply BitVec.eq_of_toNat_eq
    rw [toNat_leftLen, hfirst, hadd, hhead, BitVec.toNat_ofNat, BitVec.toNat_ofNat, BitVec.toNat_ofNat]
    omega
  refine ⟨hfirst, convertStreamToMsg_ok_iff.mpr ⟨?_, ?_, ?_⟩⟩
  · rw [hadd, BitVec.toNat_ofNat]
    omega
  · rw [hhead, hread', ← hheadBytes]
    exact MessageCodec.parse_serialize messages.head msg.msgHead
  unfold ParaDecoded
  rw [hleft, hhead]
  cases hmsgPara : msg.msgPara with
  | none =>
    rw [hmsgPara] at hsize
    dsimp only at hsize
    rw [show C - 6 - headBytes.length = 0 by omega]
    rfl
  | some msgPara =>
    rw [hmsgPara] at hsize hrest
    dsimp only at hsize hrest
    obtain ⟨hlen, hrest⟩ := hrest.lengthAt false (show (body.serialize msgPara).length < 2 ^ 16 by omega)
    have hne : BitVec.ofNat 16 (C - 6 - headBytes.length) ≠ 0 := by
      intro hzero
      have hnat := congrArg BitVec.toNat hzero
      rw [BitVec.toNat_ofNat] at hnat
      change _ = 0 at hnat
      omega
    rw [hlen]
    dsimp only
    rw [if_neg hne, BitVec.toNat_ofNat, Nat.mod_eq_of_lt (by omega)]
    refine ⟨?_, body, msgPara, hfactory, ?_, rfl⟩
    · apply BitVec.eq_of_toNat_eq
      rw [toNat_sub_two, BitVec.toNat_ofNat, BitVec.toNat_ofNat]
      omega
    · have hbody : read buff.data (buff.readIndex + (6 + headBytes.length + 2)) (body.serialize msgPara).length =
          body.serialize msgPara := hrest
      rw [hbody, MessageCodec.parse_serialize body msgPara]

end RoundTrip

/-- A message comes back if and only if the machine stores numbers in the order of the network. -/
theorem serverMessage_roundTrip_iff (little : Bool) (messages : ServerMessages α β) (body : MessageCodec β)
    (msg : ProxyMessage α β) (memory : Nat → UInt8) (buffLen : BitVec 16)
    (hfactory : messages.createMessage (messages.messageId msg.msgHead) = some body)
    (hfit : packageSize messages.head body msg ≤ buffLen.toNat) :
    RoundTrip little messages body msg memory buffLen ↔ little = false := by
  cases little with
  | false => exact ⟨fun _ => rfl, fun _ => roundTrip_bigEndian memory hfactory hfit⟩
  | true =>
    constructor
    · intro h
      exact absurd h (not_roundTrip_littleEndian memory hfactory hfit)
    · intro h
      cases h

def wireMessages : ServerMessages proxyHeadFormat.Message socketInfoFormat.Message :=
  ⟨proxyHeadFormat.codec, fun head => head.field 0x38, fun _ => some socketInfoFormat.codec⟩

def headFromTwo : proxyHeadFormat.Message := ⟨[0x08, 2, 0x10, 7, 0x18, 3, 0x20, 7, 0x28, 0], by decide⟩

def socketSix : socketInfoFormat.Message := ⟨[0x08, 6], by decide⟩

/-- A head of ten bytes and a body of two, on a machine of each kind. -/
theorem serverMessage_roundTrip_twelve :
    RoundTrip false wireMessages socketInfoFormat.codec ⟨headFromTwo, some socketSix⟩ (fun _ => 0) 1024 ∧
      ¬RoundTrip true wireMessages socketInfoFormat.codec ⟨headFromTwo, some socketSix⟩ (fun _ => 0) 1024 := by
  refine ⟨(serverMessage_roundTrip_iff false _ _ _ _ _ rfl (by decide)).mpr rfl, ?_⟩
  intro h
  exact absurd ((serverMessage_roundTrip_iff true _ _ _ _ _ rfl (by decide)).mp h) (by decide)

/-- A head of ten bytes and no body: the total length 16 is read as 4096. -/
theorem serverMessage_lengths_swapped :
    ¬RoundTrip true wireMessages socketInfoFormat.codec ⟨headFromTwo, none⟩ (fun _ => 0) 1024 := by
  rintro ⟨memory', len, hencode, htotal, -⟩
  have hswapped : (convertMsgToStream true proxyHeadFormat.codec socketInfoFormat.codec ⟨headFromTwo, none⟩
      (fun _ => 0) 1024).toOption.map (fun result => (ByteBuff.readUnShort true ⟨write ByteBuff.clear.data 0
        (read result.1 0 result.2.toNat), 0, result.2.toNat⟩).1 == result.2) = some false := by
    decide
  have hencode' : convertMsgToStream true proxyHeadFormat.codec socketInfoFormat.codec ⟨headFromTwo, none⟩
    (fun _ => 0) 1024 = .ok (memory', len) := hencode
  rw [hencode'] at hswapped
  simp [Except.toOption] at hswapped
  exact hswapped htotal

section Contained

variable {messages : ServerMessages α β} {msg : ProxyMessage α β} {factory : Bool} {buff : ByteBuff} {k n total : Nat}
  {data : Nat → UInt8}

/-- The bytes of the declared total are given, and it has room for the prefixes and the head. -/
def HeadFits (little : Bool) (buff : ByteBuff) : Prop :=
  (lengthAt little buff 0).toNat ≤ buff.writeIndex - buff.readIndex ∧
    6 + headLen little buff ≤ (lengthAt little buff 0).toNat

/-- The bytes of the declared total are given, and it is what the prefixes, the head and the padding take, or has
room for the length of a body as well. -/
def PartsFit (little : Bool) (buff : ByteBuff) : Prop :=
  let total := (lengthAt little buff 0).toNat
  let addLen := (lengthAt little buff 2).toNat
  total ≤ buff.writeIndex - buff.readIndex ∧
    (total = 6 + addLen + headLen little buff ∨ 8 + addLen + headLen little buff ≤ total)

/-- The length of the body agrees with the total modulo `2 ^ 16` only. -/
lemma ParaDecoded.lengthsEnd_le_iff (h : ParaDecoded little messages factory buff msg)
    (hadd : (lengthAt little buff 2).toNat < 8) :
    lengthsEnd little buff ≤ (lengthAt little buff 0).toNat ↔
      (lengthAt little buff 0).toNat = 6 + (lengthAt little buff 2).toNat + headLen little buff ∨
      8 + (lengthAt little buff 2).toNat + headLen little buff ≤ (lengthAt little buff 0).toNat := by
  unfold ParaDecoded at h
  dsimp only at h
  have htotal := (lengthAt little buff 0).isLt
  have hhead : headLen little buff < 2 ^ 16 := (lengthAt little buff 4).isLt
  have hleft := @toNat_leftLen little buff
  by_cases hzero : leftLen little buff = 0
  · rw [hzero, show (0 : BitVec 16).toNat = 0 from rfl] at hleft
    rw [lengthsEnd, if_pos hzero]
    omega
  · have hne : (leftLen little buff).toNat ≠ 0 := fun h0 => hzero (BitVec.eq_of_toNat_eq h0)
    rw [if_neg hzero] at h
    rw [lengthsEnd, if_neg hzero, ← h.1, toNat_sub_two]
    omega

lemma convertStreamToProxy_ok_iff {head : MessageCodec α} {msgHead : α} :
    (∃ rest, convertStreamToProxy little head buff = .ok (msgHead, rest)) ↔
      (lengthAt little buff 2).toNat < 8 ∧
      head.parse (read buff.data (buff.readIndex + 6) (headLen little buff)) = some msgHead := by
  rw [convertStreamToProxy_eq]
  split_ifs with hadd
  · exact iff_of_false (fun ⟨_, h⟩ => nomatch h) fun h => by omega
  · split
    · simp [*]
    · simp [*, Nat.lt_of_not_le hadd]

variable (hdata : ∀ i < total, data (buff.readIndex + i) = buff.data (buff.readIndex + i))

include hdata

lemma read_within (hk : k + n ≤ total) :
    read data (buff.readIndex + k) n = read buff.data (buff.readIndex + k) n := by
  apply read_congr
  intro i hlow hhigh
  have hi := hdata (i - buff.readIndex) (by omega)
  rwa [Nat.add_sub_cancel' (by omega)] at hi

lemma lengthAt_within (hk : k + 2 ≤ total) :
    lengthAt little { buff with data := data } k = lengthAt little buff k := by
  unfold lengthAt ByteBuff.readUnShort
  rw [readT_eq, readT_eq]
  dsimp only [readLen]
  rw [read_within hdata hk]

lemma headLen_within (htotal : 6 ≤ total) : headLen little { buff with data := data } = headLen little buff :=
  congrArg BitVec.toNat (lengthAt_within hdata htotal)

lemma ParaDecoded.within (h : ParaDecoded little messages factory buff msg)
    (htotal : lengthsEnd little buff ≤ total) :
    ParaDecoded little messages factory { buff with data := data } msg := by
  unfold lengthsEnd at htotal
  have hsix : 6 + headLen little buff ≤ total := by
    split_ifs at htotal <;> omega
  have hleft : leftLen little { buff with data := data } = leftLen little buff := by
    rw [leftLen, lengthAt_within hdata (by omega), lengthAt_within hdata (by omega), lengthAt_within hdata (by omega)]
    rfl
  unfold ParaDecoded at h ⊢
  rw [headLen_within hdata (by omega), hleft]
  by_cases hzero : leftLen little buff = 0
  · rw [if_pos hzero] at h ⊢
    exact h
  · rw [if_neg hzero] at h htotal ⊢
    rw [lengthAt_within hdata (by omega), read_within hdata (by omega)]
    exact h

end Contained

/-- The decoders stay within the declared total if the lengths in the stream fit, and a stream that a decoder
accepts has to fit. -/
theorem streams_contained_iff (little : Bool) (messages : ServerMessages α β) (factory : Bool) (buff : ByteBuff) :
    let proxy := convertStreamToProxy little messages.head
    let msg := convertStreamToMsg little messages factory
    (HeadFits little buff → Contained little buff proxy (6 + headLen little buff)) ∧
    (PartsFit little buff → Contained little buff msg (lengthsEnd little buff)) ∧
    (∀ result, proxy buff = .ok result → Contained little buff proxy (6 + headLen little buff) →
      HeadFits little buff) ∧
    (∀ result, msg buff = .ok result → Contained little buff msg (lengthsEnd little buff) →
      PartsFit little buff) := by
  refine ⟨?_, ?_, ?_, ?_⟩
  · rintro ⟨hgiven, hhead⟩ ⟨msgHead, rest⟩ hok
    obtain ⟨hadd, hparse⟩ := convertStreamToProxy_ok_iff.mp ⟨rest, hok⟩
    refine ⟨hgiven, hhead, fun data hdata => convertStreamToProxy_ok_iff.mpr ?_⟩
    rw [lengthAt_within hdata (by omega), headLen_within hdata (by omega), read_within hdata hhead]
    exact ⟨hadd, hparse⟩
  · rintro ⟨hgiven, hparts⟩ ⟨msg, buff'⟩ hok
    obtain ⟨hadd, hparse, hpara⟩ := convertStreamToMsg_ok_iff.mp ⟨buff', hok⟩
    have hhead : 6 + headLen little buff ≤ (lengthAt little buff 0).toNat := by omega
    have hend := (hpara.lengthsEnd_le_iff hadd).mpr hparts
    refine ⟨hgiven, hend, fun data hdata => convertStreamToMsg_ok_iff.mpr ⟨?_, ?_, hpara.within hdata hend⟩⟩
    · rw [lengthAt_within hdata (by omega)]
      exact hadd
    · rw [headLen_within hdata (by omega), read_within hdata hhead]
      exact hparse
  · intro result hok hcontained
    obtain ⟨hgiven, hhead, -⟩ := hcontained result hok
    exact ⟨hgiven, hhead⟩
  · intro result hok hcontained
    obtain ⟨hadd, -, hpara⟩ := convertStreamToMsg_ok_iff.mp ⟨result.2, hok⟩
    obtain ⟨hgiven, hend, -⟩ := hcontained result hok
    exact ⟨hgiven, (hpara.lengthsEnd_le_iff hadd).mp hend⟩

/-- A head of ten bytes is accepted, although only 16 of the 768 bytes that the stream declares are given. -/
theorem declared_total_not_given :
    let buff : ByteBuff := ⟨write ByteBuff.clear.data 0
      [0x03, 0, 0, 0, 0, 0x0A, 0x08, 0, 0x10, 0, 0x18, 0, 0x20, 0, 0x28, 0], 0, 16⟩
    (convertStreamToProxy true proxyHeadFormat.codec buff).isOk ∧
      ¬Contained true buff (convertStreamToProxy true proxyHeadFormat.codec) (6 + headLen true buff) := by
  intro buff
  have hok : (convertStreamToProxy true proxyHeadFormat.codec buff).isOk := by decide +kernel
  refine ⟨hok, fun hcontained => ?_⟩
  cases hresult : convertStreamToProxy true proxyHeadFormat.codec buff with
  | error =>
    rw [hresult] at hok
    cases hok
  | ok result => exact absurd (hcontained result hresult).1 (by decide +kernel)

end MyLibevent.Proofs
