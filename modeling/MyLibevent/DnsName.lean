import MyLibevent.Bytes

/-!
# Names in DNS messages

`evdns.c`: `name_parse` reads a name from a message, following jumps, and `dnsname_to_labels`
writes one, with jumps to names written before. Messages and buffers are lists of bytes, names are
the bytes of a C string without its final NUL.
-/

namespace MyLibevent

def dotByte : UInt8 := 46

/-! ## Reading -/

def withDot (out : Bytes) : Bytes := if out = [] then out else out ++ [dotByte]

lemma length_le_withDot (out : Bytes) : out.length ≤ (withDot out).length := by
  unfold withDot
  split <;> simp

/-- The loop of `name_parse` over a packet at index `j`; `out` is what has been written to
`name_out`, `nameEnd` the index after the first jump. -/
def nameParseLoop (packet : Bytes) (nameOutLen j : Nat) (out : Bytes)
    (nameEnd : Option Nat) (ptrCount : Nat) : Option (Bytes × Nat) :=
  match packet[j]? with
  | none => none
  | some labelLen =>
    if labelLen = 0 then
      if out.length ≥ nameOutLen then none else some (out, nameEnd.getD (j + 1))
    else if labelLen &&& 0xc0 ≠ 0 then
      match packet[j + 1]? with
      | none => none
      | some ptrLow =>
        let target := (labelLen &&& 0x3f).toNat * 256 + ptrLow.toNat
        if target ≥ packet.length then none
        -- more jumps than bytes: a loop
        else if ptrCount + 1 > packet.length then none
        else
          nameParseLoop packet nameOutLen target out (some (nameEnd.getD (j + 2))) (ptrCount + 1)
    else if labelLen.toNat > 63 then none
    else if out ≠ [] ∧ out.length + 1 ≥ nameOutLen then none
    else if (withDot out).length + labelLen.toNat ≥ nameOutLen then none
    else if j + 1 + labelLen.toNat > packet.length then none
    else
      nameParseLoop packet nameOutLen (j + 1 + labelLen.toNat)
        (withDot out ++ (packet.drop (j + 1)).take labelLen.toNat) nameEnd ptrCount
termination_by (packet.length - ptrCount) + (nameOutLen - out.length)
decreasing_by
  · omega
  · rename_i hzero _ _ _ _ _
    have hpos : labelLen.toNat ≠ 0 := fun h => hzero (UInt8.toNat_inj.mp h)
    have hlen : ((packet.drop (j + 1)).take labelLen.toNat).length = labelLen.toNat := by
      rw [List.length_take, List.length_drop]
      omega
    have hout := length_le_withDot out
    rw [List.length_append, hlen]
    omega

def nameParse (packet : Bytes) (idx nameOutLen : Nat) : Option (Bytes × Nat) :=
  nameParseLoop packet nameOutLen idx [] none 0

/-! ## Writing -/

def writeAt (buf : Bytes) (j : Nat) (bytes : Bytes) : Bytes :=
  buf.take j ++ bytes ++ buf.drop (j + bytes.length)

def bytes16 (x : Nat) : Bytes := [UInt8.ofNat (x / 256), UInt8.ofNat x]

def maxLabels : Nat := 128

abbrev DnslabelTable := List (Bytes × Nat)

def dnslabelTableGetPos (table : DnslabelTable) (label : Bytes) : Option Nat :=
  (table.find? fun entry => entry.1 = label).map (·.2)

/-- `dnslabel_table_add`; `strdup` tells whether there is memory for a label. -/
def dnslabelTableAdd (strdup : Bytes → Nat → Bool) (table : DnslabelTable)
    (label : Bytes) (pos : Nat) : DnslabelTable :=
  if table.length = maxLabels then table
  else if strdup label pos then table ++ [(label, pos)]
  else table

/-- What `dnsname_to_labels` returns, an index or a negative code, with the buffer and the table it
leaves. -/
structure DnsLabels where
  index : Int
  buf : Bytes
  table : Option DnslabelTable
deriving DecidableEq, Repr

def dnsnameToLabelsLoop (bufLen : Nat) (strdup : Bytes → Nat → Bool) (buf : Bytes)
    (j : Nat) (name : Bytes) (table : Option DnslabelTable) : DnsLabels :=
  match table.bind (dnslabelTableGetPos · name) with
  | some ref =>
    if j + 2 > bufLen then ⟨-2, buf, table⟩
    else ⟨j + 2, writeAt buf j (bytes16 (ref ||| 0xc000)), table⟩
  | none =>
    let label := name.takeWhile (· ≠ dotByte)
    if label.length > 63 then ⟨-1, buf, table⟩
    else if j + label.length + 1 > bufLen then ⟨-2, buf, table⟩
    else
      let table := table.map (dnslabelTableAdd strdup · name j)
      let buf := writeAt buf j (UInt8.ofNat label.length :: label)
      let j := j + 1 + label.length
      match h : name.dropWhile (· ≠ dotByte) with
      | [] =>
        -- a name that ends in a dot has its final zero already
        if buf[j - 1]? ≠ some 0 then ⟨j + 1, writeAt buf j [0], table⟩ else ⟨j, buf, table⟩
      | _ :: rest => dnsnameToLabelsLoop bufLen strdup buf j rest table
termination_by name.length
decreasing_by
  have hle := (List.dropWhile_suffix (l := name) fun x => decide (x ≠ dotByte)).length_le
  rw [h] at hle
  exact hle

def dnsnameToLabels (bufLen : Nat) (strdup : Bytes → Nat → Bool) (buf : Bytes) (j : Nat)
    (name : Bytes) (table : Option DnslabelTable) : DnsLabels :=
  if name.length > 255 then ⟨-2, buf, table⟩
  else dnsnameToLabelsLoop bufLen strdup buf j name table

/-- Names in a message: the start and the end of each, the end of the last one, the buffer and the
table. -/
structure EncodedNames where
  spans : List (Nat × Nat)
  stop : Nat
  buf : Bytes
  table : Option DnslabelTable
deriving DecidableEq, Repr

/-- Names written one after another from index `j` on with one table; `none` if a name cannot be
written. -/
def encodeNames (bufLen : Nat) (strdup : Bytes → Nat → Bool) (buf : Bytes) (j : Nat)
    (table : Option DnslabelTable) : List Bytes → Option EncodedNames
  | [] => some ⟨[], j, buf, table⟩
  | name :: names =>
    let r := dnsnameToLabels bufLen strdup buf j name table
    if r.index < 0 then none
    else
      (encodeNames bufLen strdup r.buf r.index.toNat r.table names).map fun out =>
        { out with spans := (j, r.index.toNat) :: out.spans }

end MyLibevent
