import MyLibevent.Lines

/-!
# Patterns of virtual hosts

`prefix_suffix_match` of `http.c` compares a host name with the pattern of a virtual host.
-/

namespace MyLibevent

def matchSuffix (rest : Bytes → Bool) : Bytes → Bool
  | [] => false
  | c :: name => rest (c :: name) || matchSuffix rest name

def prefixSuffixMatch (ignorecase : Bool) : Bytes → Bytes → Bool
  | [], name => name.isEmpty
  | c :: pattern, name =>
    if c = byte '*' then matchSuffix (prefixSuffixMatch ignorecase pattern) name
    else
      match name with
      | [] => false
      | d :: name =>
        if c ≠ d ∧ (ignorecase = false ∨ toLower c ≠ toLower d) then false
        else prefixSuffixMatch ignorecase pattern name

/-- Shell matching: a `*` stands for any string, every other character for itself in either case. -/
inductive ShellMatch : Bytes → Bytes → Prop
  | nil : ShellMatch [] []
  | star {pattern name : Bytes} (any : Bytes) (h : ShellMatch pattern name) :
      ShellMatch (byte '*' :: pattern) (any ++ name)
  | char {c d : UInt8} {pattern name : Bytes} (hc : c ≠ byte '*') (hcd : toLower c = toLower d)
      (h : ShellMatch pattern name) : ShellMatch (c :: pattern) (d :: name)

end MyLibevent
