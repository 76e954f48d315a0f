import MyLibevent.GateServer

/-!
# Packets handed over by the gate server

`IsPackageComplete` takes the length of a packet from the input but nobody keeps it, and `RecvClientData`,
which runs once for each read, then takes all that is left.
-/

namespace MyLibevent.Proofs

open GateConn Acceptor List

section Packets

structure IsPacket (packet : Bytes) : Prop where
  head : 2 ≤ packet.length
  length_eq : (unShort packet).toNat = packet.length

lemma IsPacket.length_lt {packet : Bytes} (h : IsPacket packet) : packet.length < 65536 :=
  h.length_eq ▸ (unShort packet).toNat_lt

def packetEnd (packets : List Bytes) (j : Nat) : Nat := (packets.take j).flatten.length

def wholePackets : List Bytes → Nat → List Bytes
  | [], _ => []
  | packet :: packets, n =>
    if packet.length ≤ n then packet.drop 2 :: wholePackets packets (n - packet.length) else []

def Delivers (packets reads : List Bytes) : Prop :=
  ∀ k ≤ reads.length, ∃ conn, (reads.take k).foldlM receive start = some conn ∧
    conn.handed = wholePackets packets (packetEnd reads k)

def PacketsFit (packets : List Bytes) : Prop :=
  ∀ packet ∈ packets, (packet.drop 2).length ≤ maxPackageLen

def PacketReads (packets reads : List Bytes) : Prop :=
  (∀ k ≤ reads.length, ∃ j ≤ packets.length,
    packetEnd reads k = packetEnd packets j ∨ packetEnd reads k = packetEnd packets j + 1) ∧
  ∀ j ≤ packets.length, ∃ k ≤ reads.length, packetEnd reads k = packetEnd packets j

variable {packets : List Bytes} {i j n : Nat}

lemma packetEnd_succ (h : j < packets.length) :
    packetEnd packets (j + 1) = packetEnd packets j + packets[j].length := by
  unfold packetEnd
  rw [take_succ_eq_append_getElem h, flatten_append, length_append, flatten_singleton]

lemma packetEnd_mono (packets : List Bytes) (h : i ≤ j) : packetEnd packets i ≤ packetEnd packets j := by
  unfold packetEnd
  have htake : (packets.take j).take i = packets.take i := by
    rw [take_take, Nat.min_eq_left h]
  have hsplit := congrArg (fun l => l.flatten.length) (take_append_drop i (packets.take j))
  simp only [htake, flatten_append, length_append] at hsplit
  omega

lemma packetEnd_lt (hpackets : ∀ packet ∈ packets, IsPacket packet) (h : i < j) (hj : j ≤ packets.length) :
    packetEnd packets i + 2 ≤ packetEnd packets j := by
  have hi : i < packets.length := by omega
  have hhead := (hpackets packets[i] (getElem_mem hi)).head
  have hsucc := packetEnd_succ hi
  have hmono := packetEnd_mono packets (show i + 1 ≤ j from h)
  omega

lemma wholePackets_spec (packets : List Bytes) (n : Nat) : ∃ j ≤ packets.length,
    wholePackets packets n = (packets.take j).map (·.drop 2) ∧
    (packetEnd packets j ≤ n ∧ (j < packets.length → n < packetEnd packets (j + 1))) := by
  induction packets generalizing n with
  | nil => exact ⟨0, Nat.le_refl _, rfl, Nat.zero_le _, fun h => absurd h (Nat.lt_irrefl _)⟩
  | cons packet packets ih =>
    unfold wholePackets
    split_ifs with hle
    · obtain ⟨j, hj, heq, hlow, hhigh⟩ := ih (n - packet.length)
      have hend (j : Nat) : packetEnd (packet :: packets) (j + 1) = packet.length + packetEnd packets j := by
        simp [packetEnd]
      refine ⟨j + 1, Nat.succ_le_succ hj, ?_, ?_, fun h => ?_⟩
      · rw [heq, take_succ_cons, map_cons]
      · rw [hend]
        omega
      · have hhigh' := hhigh (Nat.lt_of_succ_lt_succ h)
        rw [hend]
        omega
    · refine ⟨0, Nat.zero_le _, rfl, Nat.zero_le _, fun _ => ?_⟩
      rw [packetEnd_succ (Nat.succ_pos _)]
      simp only [getElem_cons_zero, packetEnd, take_zero, flatten_nil, length_nil]
      omega

lemma wholePackets_eq (hpackets : ∀ packet ∈ packets, IsPacket packet) (hj : j ≤ packets.length)
    (hlow : packetEnd packets j ≤ n) (hhigh : n ≤ packetEnd packets j + 1) :
    wholePackets packets n = (packets.take j).map (·.drop 2) := by
  obtain ⟨i, hi, heq, hle, hlt⟩ := wholePackets_spec packets n
  obtain hij | rfl | hij := Nat.lt_trichotomy i j
  · have hend := hlt (by omega)
    have hmono := packetEnd_mono packets (show i + 1 ≤ j from hij)
    omega
  · exact heq
  · have hend := packetEnd_lt hpackets hij hi
    omega

lemma packetEnd_eq_sum (hpackets : ∀ packet ∈ packets, IsPacket packet) (hj : j ≤ packets.length) :
    packetEnd packets j = 2 * j + (((packets.take j).map (·.drop 2)).map List.length).sum := by
  induction j with
  | zero => simp [packetEnd]
  | succ j ih =>
    have hj' : j < packets.length := hj
    have hhead := (hpackets packets[j] (getElem_mem hj')).head
    rw [packetEnd_succ hj', ih (Nat.le_of_succ_le hj), take_succ_eq_append_getElem hj']
    simp only [map_append, map_cons, map_nil, sum_append, sum_cons, sum_nil, length_drop]
    omega

end Packets

section Receive

variable {conn conn' : GateConn} {bytes input : Bytes}

inductive ReadOutcome (conn : GateConn) (input : Bytes) : GateConn → Prop
  | waits (conn' : GateConn) : input.length % 2 ^ 32 < 2 → conn'.acceptor = ⟨input, 0⟩ →
      conn'.handed = conn.handed → ReadOutcome conn input conn'
  | loses (conn' : GateConn) : 2 ≤ input.length → conn'.acceptor = ⟨input.drop 2, 0⟩ →
      conn'.handed = conn.handed → ReadOutcome conn input conn'
  | hands (conn' : GateConn) : 2 ≤ input.length → (input.drop 2).length ≤ maxPackageLen →
      conn'.acceptor = ⟨[], 0⟩ → conn'.handed = conn.handed ++ [input.drop 2] → ReadOutcome conn input conn'

lemma recvClientData_complete (conn : GateConn) {acceptor : Acceptor}
    (hcomplete : conn.acceptor.isPackageComplete = (true, acceptor))
    (hnone : acceptor.recvPackLen = 0) (hlength : acceptor.input.length ≤ maxPackageLen) :
    ∃ conn', conn.recvClientData = some conn' ∧ conn'.acceptor = ⟨[], 0⟩ ∧
      conn'.handed = conn.handed ++ [acceptor.input] := by
  have hsize : ((((0 : UInt16).toNat : Int) - 2) % 2 ^ 32).toNat = 4294967294 := by decide
  have hmax : maxPackageLen = 61440 := rfl
  have htake : acceptor.input.take 4294967294 = acceptor.input := take_of_length_le (by omega)
  have hdrop : acceptor.input.drop 4294967294 = [] := drop_of_length_le (by omega)
  have hshort : (UInt16.ofNat acceptor.input.length).toNat = acceptor.input.length :=
    UInt16.toNat_ofNat_of_lt (by simp only [UInt16.size]; omega)
  unfold recvClientData
  rw [hcomplete]
  simp only [recvData, hnone, hsize, htake, hdrop, Bool.true_eq_false, if_false, Nat.not_lt.mpr hlength]
  refine ⟨_, rfl, rfl, ?_⟩
  simp only [dealClientData, ByteBuff.writeLen, hshort]
  rw [ByteBlock.read_write]

lemma isPackageComplete_short (hshort : input.length % 2 ^ 32 < 2) :
    (⟨input, 0⟩ : Acceptor).isPackageComplete = (false, ⟨input, 0⟩) := by
  unfold isPackageComplete readRecvPackLen getRecvDataSize
  simp only [if_pos, if_pos hshort]

lemma isPackageComplete_long (hlong : ¬ input.length % 2 ^ 32 < 2) :
    (⟨input, 0⟩ : Acceptor).isPackageComplete = (decide (unShort input ≠ 0 ∧
      (unShort input - 2).toNat ≤ (input.length - 2) % 2 ^ 32), ⟨input.drop 2, 0⟩) := by
  have hhead : unShort (input.take 2) = unShort input := by
    unfold unShort
    cases input with
    | nil => rfl
    | cons x input =>
      cases input with
      | nil => rfl
      | cons y input => rfl
  unfold isPackageComplete readRecvPackLen getRecvDataSize
  simp only [if_pos, if_neg hlong, recvData, hhead, length_drop]
  by_cases hzero : unShort input = 0
  · simp [hzero]
  · simp [hzero]

lemma receive_outcome (hlen : conn.acceptor.recvPackLen = 0) (hr : conn.receive bytes = some conn') :
    ReadOutcome conn (conn.acceptor.input ++ bytes) conn' := by
  unfold receive at hr
  dsimp only at hr
  rw [hlen] at hr
  generalize conn.acceptor.input ++ bytes = input at hr ⊢
  by_cases hshort : input.length % 2 ^ 32 < 2
  · unfold recvClientData at hr
    rw [isPackageComplete_short hshort] at hr
    cases hr
    exact .waits _ hshort rfl rfl
  have hlong : 2 ≤ input.length := by
    omega
  have hcomplete := isPackageComplete_long hshort
  by_cases hwhole : unShort input ≠ 0 ∧ (unShort input - 2).toNat ≤ (input.length - 2) % 2 ^ 32
  · rw [decide_eq_true hwhole] at hcomplete
    by_cases hfits : (input.drop 2).length ≤ maxPackageLen
    · obtain ⟨c, hc, hacceptor, hhanded⟩ := recvClientData_complete
        { conn with acceptor := ⟨input, 0⟩ } hcomplete rfl hfits
      rw [hc] at hr
      cases hr
      exact .hands _ hlong hfits hacceptor hhanded
    · -- the buffer of the manager is too small
      exfalso
      have hsize : ((((0 : UInt16).toNat : Int) - 2) % 2 ^ 32).toNat = 4294967294 := by decide
      have hmax : maxPackageLen = 61440 := rfl
      have htoo : maxPackageLen < ((input.drop 2).take 4294967294).length := by
        rw [length_take]
        omega
      unfold recvClientData at hr
      rw [hcomplete] at hr
      simp only [recvData, hsize, Bool.true_eq_false, if_false, htoo, if_true] at hr
      cases hr
  · rw [decide_eq_false hwhole] at hcomplete
    unfold recvClientData at hr
    rw [hcomplete] at hr
    cases hr
    exact .loses _ hlong rfl rfl

lemma receive_short (bytes : Bytes) (hlen : conn.acceptor.recvPackLen = 0)
    (hshort : (conn.acceptor.input ++ bytes).length < 2) : ∃ conn', conn.receive bytes = some conn' ∧
      conn'.acceptor = ⟨conn.acceptor.input ++ bytes, 0⟩ ∧ conn'.handed = conn.handed := by
  unfold receive recvClientData
  dsimp only
  rw [hlen, isPackageComplete_short (Nat.lt_of_le_of_lt (Nat.mod_le _ _) hshort)]
  exact ⟨_, rfl, rfl, rfl⟩

lemma receive_packet (bytes : Bytes) (hlen : conn.acceptor.recvPackLen = 0)
    (hpacket : IsPacket (conn.acceptor.input ++ bytes))
    (hfits : ((conn.acceptor.input ++ bytes).drop 2).length ≤ maxPackageLen) :
    ∃ conn', conn.receive bytes = some conn' ∧ conn'.acceptor = ⟨[], 0⟩ ∧
      conn'.handed = conn.handed ++ [(conn.acceptor.input ++ bytes).drop 2] := by
  unfold receive
  dsimp only
  rw [hlen]
  generalize conn.acceptor.input ++ bytes = input at hpacket hfits ⊢
  have hlt := hpacket.length_lt
  have hhead := hpacket.head
  have hlong : ¬ input.length % 2 ^ 32 < 2 := by omega
  have hwhole : unShort input ≠ 0 ∧ (unShort input - 2).toNat ≤ (input.length - 2) % 2 ^ 32 := by
    have heq := hpacket.length_eq
    refine ⟨?_, ?_⟩
    · intro hzero
      rw [hzero, UInt16.toNat_zero] at heq
      omega
    · rw [UInt16.toNat_sub_of_le _ _ (by rw [UInt16.le_iff_toNat_le, heq]; exact hhead), heq]
      rw [Nat.mod_eq_of_lt (by omega)]
      rfl
  have hcomplete := isPackageComplete_long hlong
  rw [decide_eq_true hwhole] at hcomplete
  exact recvClientData_complete { conn with acceptor := ⟨input, 0⟩ } hcomplete rfl hfits

end Receive

section Runs

variable {packets reads : List Bytes} {k j : Nat}

lemma foldlM_take_succ (h : k < reads.length) : (reads.take (k + 1)).foldlM receive start =
    ((reads.take k).foldlM receive start).bind fun conn => conn.receive reads[k] := by
  rw [take_succ_eq_append_getElem h, foldlM_append]
  simp only [foldlM_cons, foldlM_nil]
  congr 1
  funext conn
  exact bind_pure _

lemma packetEnd_length (packets : List Bytes) : packetEnd packets packets.length = packets.flatten.length := by
  unfold packetEnd
  rw [take_length]

section

variable (hpackets : ∀ packet ∈ packets, IsPacket packet) (hstream : reads.flatten = packets.flatten)
include hpackets hstream

lemma run_of_packetReads (hreads : PacketReads packets reads) (hfit : PacketsFit packets)
    (hk : k ≤ reads.length) (hj : j ≤ packets.length)
    (hend : packetEnd reads k = packetEnd packets j ∨ packetEnd reads k = packetEnd packets j + 1) :
    ∃ conn, (reads.take k).foldlM receive start = some conn ∧ conn.acceptor.recvPackLen = 0 ∧
      (packets.take j).flatten ++ conn.acceptor.input = (reads.take k).flatten ∧
      conn.handed = (packets.take j).map (·.drop 2) := by
  induction k generalizing j with
  | zero =>
    have hzero : j = 0 := by
      by_contra hne
      have hlt := packetEnd_lt hpackets (Nat.pos_of_ne_zero hne) hj
      have hnil : packetEnd reads 0 = 0 := rfl
      omega
    subst hzero
    exact ⟨start, rfl, rfl, rfl, rfl⟩
  | succ k ih =>
    have hk' : k < reads.length := hk
    obtain ⟨i, hi, hi'⟩ := hreads.1 k hk'.le
    obtain ⟨conn, hrun, hlen, hinput, hhanded⟩ := ih hk'.le hi hi'
    have hmono := packetEnd_mono reads (show k ≤ k + 1 by omega)
    have hij : i ≤ j := by
      by_contra hlt
      have hends := packetEnd_lt hpackets (Nat.lt_of_not_le hlt) hi
      omega
    have hcat : (packets.take i).flatten ++ (conn.acceptor.input ++ reads[k]) = (reads.take (k + 1)).flatten := by
      rw [take_succ_eq_append_getElem hk', flatten_append, ← hinput, flatten_singleton, append_assoc]
    have hcount := congrArg List.length hcat
    rw [length_append] at hcount
    change packetEnd packets i + (conn.acceptor.input ++ reads[k]).length = packetEnd reads (k + 1) at hcount
    rw [foldlM_take_succ hk', hrun, Option.bind_some]
    obtain rfl | hlt := Nat.eq_or_lt_of_le hij
    · obtain ⟨conn', hreceive, hacceptor, hsame⟩ := receive_short reads[k] hlen (by omega)
      refine ⟨conn', hreceive, by rw [hacceptor], ?_, hsame.trans hhanded⟩
      rw [hacceptor]
      exact hcat
    · -- the next packet ends with some read, so this read ends with it
      obtain ⟨k1, hk1, hend1⟩ := hreads.2 (i + 1) (by omega)
      have hnext := packetEnd_lt hpackets (show i < i + 1 by omega) (show i + 1 ≤ packets.length by omega)
      have hafter : k + 1 ≤ k1 := by
        by_contra hbefore
        have hle := packetEnd_mono reads (show k1 ≤ k by omega)
        omega
      have hbound := packetEnd_mono reads hafter
      have hj' : j = i + 1 := by
        by_contra hne
        have hlater := packetEnd_lt hpackets (show i + 1 < j by omega) hj
        omega
      subst hj'
      have hi'' : i < packets.length := hj
      have hpacket : conn.acceptor.input ++ reads[k] = packets[i] := by
        have hsplit : packets.flatten =
            (packets.take i).flatten ++ (packets[i] ++ (packets.drop (i + 1)).flatten) := by
          conv_lhs => rw [← take_append_drop (i + 1) packets]
          rw [flatten_append, take_succ_eq_append_getElem hi'', flatten_append, flatten_singleton, append_assoc]
        have hsame : (packets.take i).flatten ++ (conn.acceptor.input ++ reads[k] ++
            (reads.drop (k + 1)).flatten) =
            (packets.take i).flatten ++ (packets[i] ++ (packets.drop (i + 1)).flatten) := by
          rw [← append_assoc, hcat, ← flatten_append, take_append_drop, hstream, hsplit]
        have hsucc := packetEnd_succ hi''
        exact (append_inj (append_cancel_left hsame) (by omega)).1
      obtain ⟨conn', hreceive, hacceptor, hnew⟩ := receive_packet reads[k] hlen
        (hpacket ▸ hpackets packets[i] (getElem_mem hi''))
        (hpacket ▸ hfit packets[i] (getElem_mem hi''))
      refine ⟨conn', hreceive, by rw [hacceptor], ?_, ?_⟩
      · rw [hacceptor, append_nil, ← hcat, hpacket, take_succ_eq_append_getElem hi'',
          flatten_append, flatten_singleton]
      · rw [hnew, hhanded, hpacket, take_succ_eq_append_getElem hi'', map_append]
        rfl

end

def accounted (conn : GateConn) : Nat :=
  2 * conn.handed.length + (conn.handed.map List.length).sum + conn.acceptor.input.length

lemma ReadOutcome.accounted {conn conn' : GateConn} {bytes : Bytes}
    (ho : ReadOutcome conn (conn.acceptor.input ++ bytes) conn') :
    accounted conn' ≤ accounted conn + bytes.length ∧
      (accounted conn + bytes.length ≤ accounted conn' →
        conn'.handed = conn.handed ∧ conn'.acceptor.input.length % 2 ^ 32 < 2 ∨
        conn'.handed.length = conn.handed.length + 1 ∧ conn'.acceptor.input = []) := by
  unfold Proofs.accounted
  cases ho with
  | waits hshort hacceptor hhanded =>
    refine ⟨?_, fun _ => .inl ⟨hhanded, by rw [hacceptor]; exact hshort⟩⟩
    rw [hacceptor, hhanded, length_append]
    omega
  | loses hlong hacceptor hhanded =>
    rw [length_append] at hlong
    rw [hacceptor, hhanded, length_drop, length_append]
    exact ⟨by omega, fun hle => by omega⟩
  | hands hlong _ hacceptor hhanded =>
    refine ⟨?_, fun _ => .inr ⟨by rw [hhanded, length_append]; rfl, by rw [hacceptor]⟩⟩
    rw [length_append] at hlong
    simp only [hacceptor, hhanded, length_append, length_drop, map_append, sum_append,
      map_cons, map_nil, sum_cons, sum_nil, length_cons, length_nil]
    omega

/-- The states of a connection between the reads of a stream, in which each packet is handed over when it
is whole. -/
structure Delivery (packets reads : List Bytes) where
  conn : Nat → GateConn
  start_eq : conn 0 = start
  receive_eq : ∀ k (hk : k < reads.length), (conn k).receive reads[k] = some (conn (k + 1))
  handed : ∀ k ≤ reads.length, (conn k).handed = wholePackets packets (packetEnd reads k)

lemma Delivers.delivery (hd : Delivers packets reads) : Nonempty (Delivery packets reads) := by
  have hconn : Nonempty GateConn := ⟨start⟩
  choose! conn hrun hhanded using hd
  refine ⟨conn, (Option.some.inj (hrun 0 (Nat.zero_le _))).symm, fun k hk => ?_, hhanded⟩
  rw [← hrun (k + 1) hk, foldlM_take_succ hk, hrun k hk.le, Option.bind_some]

namespace Delivery

variable (d : Delivery packets reads)

lemma recvPackLen (hk : k ≤ reads.length) : (d.conn k).acceptor.recvPackLen = 0 := by
  induction k with
  | zero =>
    rw [d.start_eq]
    rfl
  | succ k ih =>
    cases receive_outcome (ih (Nat.le_of_succ_le hk)) (d.receive_eq k hk) with
    | waits _ hacceptor _ | loses _ hacceptor _ => rw [hacceptor]
    | hands _ _ hacceptor _ => rw [hacceptor]

lemma read_outcome (hk : k < reads.length) :
    ReadOutcome (d.conn k) ((d.conn k).acceptor.input ++ reads[k]) (d.conn (k + 1)) :=
  receive_outcome (d.recvPackLen hk.le) (d.receive_eq k hk)

lemma accounted_mono {i : Nat} (hij : i ≤ j) (hj : j ≤ reads.length) :
    accounted (d.conn j) + packetEnd reads i ≤ accounted (d.conn i) + packetEnd reads j := by
  induction j, hij using Nat.le_induction with
  | base => exact Nat.le_refl _
  | succ j hij ih =>
    have hone := (d.read_outcome hj).accounted.1
    rw [packetEnd_succ hj]
    omega

lemma handed_le (hk : k ≤ reads.length) : ∀ rest ∈ (d.conn k).handed, rest.length ≤ maxPackageLen := by
  induction k with
  | zero =>
    rw [d.start_eq]
    exact fun _ h => absurd h not_mem_nil
  | succ k ih =>
    have hold := ih (Nat.le_of_succ_le hk)
    cases d.read_outcome hk with
    | waits _ _ hhanded | loses _ _ hhanded => exact hhanded ▸ hold
    | hands _ hfits _ hhanded =>
      rw [hhanded]
      exact forall_mem_append.mpr ⟨hold, forall_mem_singleton.mpr hfits⟩

section

variable (hpackets : ∀ packet ∈ packets, IsPacket packet) (hstream : reads.flatten = packets.flatten)
include hpackets hstream

lemma handed_all : (d.conn reads.length).handed = packets.map (·.drop 2) := by
  rw [d.handed _ (Nat.le_refl _), packetEnd_length, hstream, ← packetEnd_length packets,
    wholePackets_eq hpackets (Nat.le_refl _) (Nat.le_refl _) (Nat.le_succ _), take_length]

lemma accounted_eq (hk : k ≤ reads.length) : accounted (d.conn k) = packetEnd reads k := by
  have htotal : packetEnd reads reads.length = packetEnd packets packets.length := by
    rw [packetEnd_length, packetEnd_length, hstream]
  have hlast : packetEnd reads reads.length ≤ accounted (d.conn reads.length) := by
    rw [htotal, packetEnd_eq_sum hpackets (Nat.le_refl _), take_length]
    unfold accounted
    rw [d.handed_all hpackets hstream, length_map]
    omega
  have hfirst := d.accounted_mono (Nat.zero_le k) hk
  have hrest := d.accounted_mono hk (Nat.le_refl _)
  have hzero : accounted (d.conn 0) = 0 ∧ packetEnd reads 0 = 0 := by
    rw [d.start_eq]
    exact ⟨rfl, rfl⟩
  omega

lemma packetEnd_eq (hk : k ≤ reads.length) : (d.conn k).handed.length ≤ packets.length ∧
      packetEnd reads k = packetEnd packets (d.conn k).handed.length + (d.conn k).acceptor.input.length ∧
      (d.conn k).acceptor.input.length < 2 ^ 32 := by
  obtain ⟨j, hj, heq, hlow, hhigh⟩ := wholePackets_spec packets (packetEnd reads k)
  rw [← d.handed k hk] at heq
  have hj' : (d.conn k).handed.length = j := by
    rw [heq, length_map, length_take, Nat.min_eq_left hj]
  have hcount := d.accounted_eq hpackets hstream hk
  unfold accounted at hcount
  rw [hj', heq, ← packetEnd_eq_sum hpackets hj] at hcount
  refine ⟨hj' ▸ hj, by rw [hj', hcount], ?_⟩
  obtain rfl | hlt := Nat.eq_or_lt_of_le hj
  · have hle := packetEnd_mono reads hk
    rw [packetEnd_length reads, hstream, ← packetEnd_length packets] at hle
    omega
  · have hnext := hhigh hlt
    rw [packetEnd_succ hlt] at hnext
    have hle := (hpackets packets[j] (getElem_mem hlt)).length_lt
    omega

lemma outcome (hk : k < reads.length) :
    (d.conn (k + 1)).handed = (d.conn k).handed ∧ (d.conn (k + 1)).acceptor.input.length < 2 ∨
      (d.conn (k + 1)).handed.length = (d.conn k).handed.length + 1 ∧ (d.conn (k + 1)).acceptor.input = [] := by
  have hfull := (d.read_outcome hk).accounted.2 (by
    rw [d.accounted_eq hpackets hstream hk.le, d.accounted_eq hpackets hstream hk, packetEnd_succ hk])
  obtain ⟨-, -, hsmall⟩ := d.packetEnd_eq hpackets hstream hk
  rwa [Nat.mod_eq_of_lt hsmall] at hfull

end

end Delivery

lemma packetReads_of_delivery (hpackets : ∀ packet ∈ packets, IsPacket packet)
    (hstream : reads.flatten = packets.flatten) (d : Delivery packets reads) :
    PacketReads packets reads := by
  constructor
  · intro k hk
    obtain ⟨hj, hend, -⟩ := d.packetEnd_eq hpackets hstream hk
    refine ⟨_, hj, ?_⟩
    cases k with
    | zero =>
      rw [d.start_eq] at hend ⊢
      exact .inl hend
    | succ k =>
      obtain ⟨-, hshort⟩ | ⟨-, hnil⟩ := d.outcome hpackets hstream hk
      · omega
      · rw [hnil, length_nil] at hend
        exact .inl hend
  · -- the first read after which so many packets are handed over
    intro j hj
    have hex : ∃ k, k ≤ reads.length ∧ j ≤ (d.conn k).handed.length := by
      refine ⟨reads.length, Nat.le_refl _, ?_⟩
      rw [d.handed_all hpackets hstream, length_map]
      exact hj
    obtain ⟨hk, hreached⟩ := Nat.find_spec hex
    have hfirst {i : Nat} (hi : i < Nat.find hex) := Nat.find_min hex hi
    generalize Nat.find hex = k at hk hreached hfirst
    obtain ⟨-, hend, -⟩ := d.packetEnd_eq hpackets hstream hk
    refine ⟨k, hk, ?_⟩
    cases k with
    | zero =>
      rw [d.start_eq] at hreached hend
      obtain rfl := Nat.le_zero.mp hreached
      exact hend
    | succ k =>
      have hbefore : (d.conn k).handed.length < j := by
        by_contra hle
        exact hfirst (Nat.lt_succ_self k) ⟨Nat.le_of_succ_le hk, Nat.le_of_not_lt hle⟩
      obtain ⟨hsame, -⟩ | ⟨hmore, hnil⟩ := d.outcome hpackets hstream hk
      · rw [hsame] at hreached
        omega
      · rw [hnil, length_nil] at hend
        have hj' : (d.conn (k + 1)).handed.length = j := by omega
        rw [hend, hj']
        rfl

/-- The gate server hands over the packets of a stream as they arrive exactly if each read ends with a
packet or after the first byte of one, no read goes beyond the end of a packet, and the packets fit into
its buffer. -/
theorem delivers_iff (hpackets : ∀ packet ∈ packets, IsPacket packet)
    (hstream : reads.flatten = packets.flatten) :
    Delivers packets reads ↔ PacketReads packets reads ∧ PacketsFit packets := by
  constructor
  · intro hd
    obtain ⟨d⟩ := hd.delivery
    refine ⟨packetReads_of_delivery hpackets hstream d, fun packet hpacket => ?_⟩
    apply d.handed_le (Nat.le_refl _)
    rw [d.handed_all hpackets hstream]
    exact mem_map_of_mem hpacket
  · rintro ⟨hreads, hfit⟩ k hk
    obtain ⟨j, hj, hend⟩ := hreads.1 k hk
    obtain ⟨conn, hrun, -, -, hhanded⟩ := run_of_packetReads hpackets hstream hreads hfit hk hj hend
    refine ⟨conn, hrun, ?_⟩
    rw [hhanded, wholePackets_eq hpackets hj (by omega) (by omega)]

/-- The first byte of a packet, the rest of it, and a packet without more. -/
theorem delivers_iff_firstByte : Delivers [[0, 3, 7], [0, 2]] [[0], [3, 7], [0, 2]] := by
  refine (delivers_iff ?_ (by rfl)).mpr ⟨⟨by decide, by decide⟩, by unfold PacketsFit; decide⟩
  intro packet hpacket
  simp only [mem_cons, not_mem_nil, or_false] at hpacket
  obtain rfl | rfl := hpacket
  · exact ⟨by decide, by decide⟩
  · exact ⟨by decide, by decide⟩

/-- A packet of four bytes that comes in two reads is never handed over. -/
theorem gate_loses_packet : IsPacket [0, 4, 1, 2] ∧ ¬ Delivers [[0, 4, 1, 2]] [[0, 4], [1, 2]] := by
  refine ⟨⟨by decide, by decide⟩, fun hd => ?_⟩
  obtain ⟨conn, hrun, hhanded⟩ := hd 2 (by decide)
  have hnone : (([[0, 4], [1, 2]].take 2).foldlM receive start).map (·.handed) = some [] := rfl
  rw [hrun, Option.map_some, hhanded] at hnone
  revert hnone
  decide

end Runs

end MyLibevent.Proofs
