import CycloneTcp.Lib.CString
import CycloneTcp.Lib.Memory

set_option autoImplicit false

/-! # Domain names in DNS messages

A message is the list of its bytes, so that reading one at or behind its length gives `none`. A
function that follows compression pointers calls itself; `next` stands for that call in its loop,
and the functions recurse over the levels that are left. -/

namespace Dns

open CString

def DNS_NAME_MAX_RECURSION : ℕ := 4

def DNS_LABEL_MAX_SIZE : ℕ := 63

def DNS_COMPRESSION_TAG : UInt8 := 0xC0

/-- `'.'`. -/
def separator : UInt8 := 46

/-! ## Encoding -/

/-- `dest[k] = bytes[0]`, `dest[k + 1] = bytes[1]`, ..., if `dest` is not NULL. -/
def store (mem : Memory UInt8) (dest : Option ℕ) (k : ℕ) (bytes : List UInt8) : Memory UInt8 :=
  match dest with
  | none => mem
  | some dest => mem.write (dest + k) bytes

/-- The loop of `dnsEncodeName`: `i` characters of the current label, which begins at `src`, have
been copied. -/
def encodeLoop (mem : Memory UInt8) (src : List UInt8) (dest : Option ℕ) (i length : ℕ) :
    ℕ × Memory UInt8 :=
  if h : i < src.length then
    if src[i] = separator then
      if i < 1 ∨ DNS_LABEL_MAX_SIZE < i then (0, mem)
      else
        encodeLoop (store mem dest 0 [UInt8.ofNat i]) (src.drop (i + 1))
          (dest.map (· + (i + 1))) 0 (length + (i + 1))
    else encodeLoop (store mem dest (i + 1) [src[i]]) src dest (i + 1) length
  else
    -- end of string
    if i < 1 ∨ DNS_LABEL_MAX_SIZE < i then (0, mem)
    else (length + (i + 2), store (store mem dest 0 [UInt8.ofNat i]) dest (i + 1) [0])
termination_by src.length - i
decreasing_by
  · rw [List.length_drop]
    omega
  · omega

/-- Encode a domain name using the DNS name notation. The length of the encoded name is returned, 0
if the name cannot be encoded. -/
def dnsEncodeName (mem : Memory UInt8) (src : List UInt8) (dest : Option ℕ) : ℕ × Memory UInt8 :=
  encodeLoop mem src dest 0 0

/-! ## Decoding -/

/-- The position that a compression pointer stands for. -/
def pointer (high low : UInt8) : ℕ :=
  (high &&& ~~~DNS_COMPRESSION_TAG).toNat * 256 + low.toNat

/-- `memcpy` from a message. -/
def readBytes (message : List UInt8) (pos n : ℕ) : Option (List UInt8) :=
  if pos + n ≤ message.length then some ((message.drop pos).take n) else none

/-- The loop of `dnsParseName`. `dest` is what has been written so far. -/
def parseLoop (message : List UInt8)
    (next : ℕ → Option (List UInt8) → Option (ℕ × Option (List UInt8))) (pos : ℕ)
    (dest : Option (List UInt8)) : Option (ℕ × Option (List UInt8)) :=
  if _h : pos < message.length then
    match message[pos]? with
    | none => none
    | some n =>
        if n = 0 then some (pos + 1, dest.map (· ++ [0]))
        else if DNS_COMPRESSION_TAG ≤ n then
          if message.length ≤ pos + 1 then some (0, dest)
          else
            match message[pos + 1]? with
            | none => none
            | some low =>
                match next (pointer n low) dest with
                | none => none
                | some (p, dest) => some (if p = 0 then 0 else pos + 2, dest)
        else if n.toNat < DNS_LABEL_MAX_SIZE then
          if message.length < pos + 1 + n.toNat then some (0, dest)
          else
            match dest with
            | none => parseLoop message next (pos + 1 + n.toNat) none
            | some dest =>
                match readBytes message (pos + 1) n.toNat with
                | none => none
                | some label =>
                    if pos + 1 + n.toNat < message.length then
                      match message[pos + 1 + n.toNat]? with
                      | none => none
                      | some c =>
                          -- append a separator if necessary
                          parseLoop message next (pos + 1 + n.toNat)
                            (some (dest ++ label ++ if c ≠ 0 then [separator] else []))
                    else parseLoop message next (pos + 1 + n.toNat) (some (dest ++ label))
        else some (0, dest.map (· ++ [0]))
  else some (0, dest)
termination_by message.length - pos

/-- `dnsParseName`, with `k` levels left. -/
def parseName (message : List UInt8) :
    ℕ → ℕ → Option (List UInt8) → Option (ℕ × Option (List UInt8))
  | 0, _, dest => some (0, dest)
  | k + 1, pos, dest => parseLoop message (parseName message k) pos dest

/-- Decode a domain name that uses the DNS name encoding. The position behind the name is returned,
0 if the name is malformed. -/
def dnsParseName (message : List UInt8) (pos : ℕ) (dest : Option (List UInt8)) (level : ℕ) :
    Option (ℕ × Option (List UInt8)) :=
  parseName message (DNS_NAME_MAX_RECURSION - level) pos dest

/-! ## Comparing -/

/-- The loop of `dnsCompareName`. -/
def compareLoop (message : List UInt8) (next : ℕ → List UInt8 → Option ℤ) (pos : ℕ)
    (name : List UInt8) : Option ℤ :=
  if _h : pos < message.length then
    match message[pos]? with
    | none => none
    | some n =>
        if n = 0 then
          match name with
          | [] => none
          | c :: _ => if c ≠ 0 then some (-1) else some 0
        else if DNS_COMPRESSION_TAG ≤ n then
          -- the malformed message is answered with FALSE
          if message.length ≤ pos + 1 then some 0
          else
            match message[pos + 1]? with
            | none => none
            | some low => next (pointer n low) name
        else if message.length < pos + 1 + n.toNat then some (-2)
        else
          match strncasecmp n.toNat (message.drop (pos + 1)) name with
          | none => none
          | some res =>
              if res ≠ 0 then some res
              else
                match name.drop n.toNat with
                | [] => none
                | c :: rest =>
                    if c ≠ 0 ∧ c ≠ separator then some (-1)
                    else
                      compareLoop message next (pos + 1 + n.toNat)
                        (if c = separator then rest else c :: rest)
  else some (-2)
termination_by message.length - pos

/-- `dnsCompareName`, with `k` levels left. -/
def compareName (message : List UInt8) : ℕ → ℕ → List UInt8 → Option ℤ
  | 0, _, _ => some (-2)
  | k + 1, pos, name => compareLoop message (compareName message k) pos name

/-- Compare domain names. `name` is an array of characters that ends in NUL. -/
def dnsCompareName (message : List UInt8) (pos : ℕ) (name : List UInt8) (level : ℕ) : Option ℤ :=
  compareName message (DNS_NAME_MAX_RECURSION - level) pos name

/-- The loop of `dnsCompareEncodedName`. -/
def compareEncodedLoop (message1 message2 : List UInt8) (next : ℕ → ℕ → Option ℤ)
    (pos1 pos2 : ℕ) : Option ℤ :=
  if _h : pos1 < message1.length ∧ pos2 < message2.length then
    match message1[pos1]?, message2[pos2]? with
    | some n1, some n2 =>
        if n1 = 0 ∨ n2 = 0 then
          if n1 < n2 then some (-1) else if n1 > n2 then some 1 else some 0
        else if DNS_COMPRESSION_TAG ≤ n1 ∨ DNS_COMPRESSION_TAG ≤ n2 then
          if DNS_COMPRESSION_TAG ≤ n1 ∧ message1.length ≤ pos1 + 1 then some (-2)
          else if DNS_COMPRESSION_TAG ≤ n2 ∧ message2.length ≤ pos2 + 1 then some (-2)
          else
            let pointer1 :=
              if DNS_COMPRESSION_TAG ≤ n1 then (message1[pos1 + 1]?).map (pointer n1) else some pos1
            let pointer2 :=
              if DNS_COMPRESSION_TAG ≤ n2 then (message2[pos2 + 1]?).map (pointer n2) else some pos2
            match pointer1, pointer2 with
            | some pointer1, some pointer2 => next pointer1 pointer2
            | _, _ => none
        else if message1.length < pos1 + 1 + n1.toNat ∨ message2.length < pos2 + 1 + n2.toNat then
          some (-2)
        else
          match strncasecmp (min n1.toNat n2.toNat) (message1.drop (pos1 + 1))
            (message2.drop (pos2 + 1)) with
          | none => none
          | some res =>
              if res ≠ 0 then some res
              else if n1 < n2 then some (-1)
              else if n1 > n2 then some 1
              else
                compareEncodedLoop message1 message2 next (pos1 + 1 + n1.toNat)
                  (pos2 + 1 + n2.toNat)
    | _, _ => none
  else some (-2)
termination_by message1.length - pos1

/-- `dnsCompareEncodedName`, with `k` levels left. -/
def compareEncodedName (message1 message2 : List UInt8) : ℕ → ℕ → ℕ → Option ℤ
  | 0, _, _ => some (-2)
  | k + 1, pos1, pos2 =>
      compareEncodedLoop message1 message2 (compareEncodedName message1 message2 k) pos1 pos2

/-- Compare domain names encoded with DNS notation. -/
def dnsCompareEncodedName (message1 : List UInt8) (pos1 : ℕ) (message2 : List UInt8) (pos2 : ℕ)
    (level : ℕ) : Option ℤ :=
  compareEncodedName message1 message2 (DNS_NAME_MAX_RECURSION - level) pos1 pos2

/-! ## Names and their encodings -/

/-- The labels of a name in text form. -/
def labels (name : List UInt8) : List (List UInt8) := name.splitOn separator

/-- A label is encoded as its length and its characters. -/
def labelBytes (label : List UInt8) : List UInt8 := UInt8.ofNat label.length :: label

/-- The encoding of a name, without compression. -/
def encoding (ls : List (List UInt8)) : List UInt8 := ls.flatMap labelBytes ++ [0]

/-- A label of a length that the encoding allows. -/
def LabelOk (label : List UInt8) : Prop := 1 ≤ label.length ∧ label.length ≤ DNS_LABEL_MAX_SIZE

instance (label : List UInt8) : Decidable (LabelOk label) := inferInstanceAs (Decidable (_ ∧ _))

theorem encoding_nil : encoding [] = [0] := rfl

theorem encoding_cons (label : List UInt8) (ls : List (List UInt8)) :
    encoding (label :: ls) = labelBytes label ++ encoding ls := by
  rw [encoding, encoding, List.flatMap_cons, List.append_assoc]

theorem labelBytes_length (label : List UInt8) : (labelBytes label).length = label.length + 1 := rfl

end Dns
