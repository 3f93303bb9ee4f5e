import WorkAtUPB.FilesServer.Packet

namespace WorkAtUPB.FilesServer

open Bytes CharArray Decimal

/-!
# FilesServerLinux — requests to read and write

A client encodes file name, offset and length with `COMMAND_GENERIC`; the server decodes with
`COMMAND_GENERIC_REVERSE`, which reads the name and then writes the server's own `offset` and
`len` over the numbers of the packet:

* `requestText`, `commandGeneric_eq` — what a request is in the packet;
* `commandGenericReverse_eq` — what the server has afterwards;
* `decodes_iff` — it is the request exactly when the server's variables had its numbers before.
-/

/-- The bytes of a request. -/
def requestText (fisier : List UInt8) (offset len : Int32) : List UInt8 :=
  field fisier ++ field (numberText offset) ++ field (numberText len)

theorem length_requestText (fisier : List UInt8) (offset len : Int32) :
    (requestText fisier offset len).length =
      fisier.length + (numberText offset).length + (numberText len).length + 3 := by
  simp only [requestText, List.length_append, length_field]
  omega

/-- A file name of a request. -/
def FileName (fisier : List UInt8) : Prop :=
  1 ≤ fisier.length ∧ fisier.length ≤ 127 ∧ 0 ∉ fisier

variable {buffer fisier scratch : List UInt8}

/-- Two numbers behind what was written before. -/
theorem numberConvert_twice {p : Nat} (w : List UInt8) (offset len : Int32)
    (hscratch : scratch.length = MAX_STRING_SIZE)
    (hfit : p + w.length + (numberText offset).length + (numberText len).length + 2 ≤
      buffer.length) :
    ∃ scratch₁ scratch₂,
      numberConvert (splice buffer p w) (p + w.length) offset scratch =
        some (splice buffer p (w ++ field (numberText offset)),
          p + (w ++ field (numberText offset)).length, scratch₁) ∧
      numberConvert (splice buffer p (w ++ field (numberText offset)))
          (p + (w ++ field (numberText offset)).length) len scratch₁ =
        some (splice buffer p (w ++ field (numberText offset) ++ field (numberText len)),
          p + (w ++ field (numberText offset) ++ field (numberText len)).length, scratch₂) := by
  have hfirst := numberConvert_behind w offset hscratch
    (show p + w.length + (numberText offset).length < buffer.length by omega)
  have hsecond := numberConvert_behind (w ++ field (numberText offset)) len
    (length_printed offset hscratch)
    (show p + (w ++ field (numberText offset)).length + (numberText len).length < buffer.length by
      rw [List.length_append, length_field]
      omega)
  exact ⟨_, _, hfirst, hsecond⟩

/-- The request in the client's packet. -/
theorem commandGeneric_eq (offset len : Int32) (hfisier : FileName fisier)
    (hbuffer : buffer.length = MAX_PACKET_SIZE)
    (hscratch : scratch.length = MAX_STRING_SIZE) :
    ∃ scratch', commandGeneric buffer 1 (fisier ++ [0]) offset len scratch =
      some (splice buffer 1 (requestText fisier offset len),
        1 + (requestText fisier offset len).length, scratch') := by
  obtain ⟨-, hshort, hzero⟩ := hfisier
  have hoffset := length_numberText_le offset
  have hlen := length_numberText_le len
  simp only [MAX_PACKET_SIZE] at hbuffer
  have hname : stringConvert buffer 1 (fisier ++ [0]) =
      some (splice buffer 1 (field fisier), 1 + (field fisier).length) :=
    stringConvert_eq hzero hshort (by omega)
  have hfit : 1 + (field fisier).length + (numberText offset).length + (numberText len).length + 2 ≤
      buffer.length := by
    rw [length_field]
    omega
  obtain ⟨scratch₁, scratch₂, hfirst, hsecond⟩ := numberConvert_twice (field fisier) offset len
    hscratch hfit
  refine ⟨scratch₂, ?_⟩
  simp only [commandGeneric, hname, Option.bind_eq_bind, Option.bind_some, hfirst, hsecond]
  rfl

/-- The server reads the name, and puts its own numbers behind it: here they are those of the
    packet. -/
theorem commandGenericReverse_eq {v : Variables} (hfisier : FileName fisier)
    (hbuffer : buffer.length = MAX_PACKET_SIZE) (hstring : v.fisier.length = MAX_STRING_SIZE)
    (hscratch : v.scratch.length = MAX_STRING_SIZE) :
    let packet := splice buffer 1 (requestText fisier v.offset v.len.toInt32)
    ∃ r, commandGenericReverse { v with buffer := packet, currentSize := 1 } = some r ∧
      contents r.fisier = fisier ∧ r.buffer = packet ∧
      r.currentSize = 1 + (requestText fisier v.offset v.len.toInt32).length := by
  intro packet
  obtain ⟨-, hshort, hzero⟩ := hfisier
  have hoffset := length_numberText_le v.offset
  have hlen := length_numberText_le v.len.toInt32
  have htext := length_requestText fisier v.offset v.len.toInt32
  simp only [MAX_PACKET_SIZE] at hbuffer
  have hpacket : packet.length = 4096 := by
    rw [← hbuffer]
    exact length_splice (by omega)
  have hdrop : packet.drop 1 = requestText fisier v.offset v.len.toInt32 ++
      buffer.drop (1 + (requestText fisier v.offset v.len.toInt32).length) :=
    drop_splice (by omega)
  have hname : packet.drop 1 = field fisier ++ (field (numberText v.offset) ++
      (field (numberText v.len.toInt32) ++
        buffer.drop (1 + (requestText fisier v.offset v.len.toInt32).length))) := by
    rw [hdrop, requestText, List.append_assoc, List.append_assoc]
  have hread := stringConvertReverse_eq hzero hshort hstring hname
  -- The name is in the packet already, and so is the whole request.
  have hfit : 1 + (field fisier).length + (numberText v.offset).length +
      (numberText v.len.toInt32).length + 2 ≤ packet.length := by
    rw [length_field]
    omega
  obtain ⟨scratch₁, scratch₂, hfirst, hsecond⟩ := numberConvert_twice (field fisier) v.offset
    v.len.toInt32 hscratch hfit
  rw [splice_of_drop hname] at hfirst
  rw [← requestText, splice_of_drop hdrop] at hsecond
  refine ⟨{ v with
    buffer := packet
    currentSize := 1 + (requestText fisier v.offset v.len.toInt32).length
    size := fisier.length
    fisier := splice v.fisier 0 (fisier ++ [0])
    scratch := scratch₂ }, ?_, contents_splice hzero, rfl, rfl⟩
  simp only [commandGenericReverse, hread, Option.bind_eq_bind, Option.bind_some, hfirst, hsecond]

/-- Decoding leaves the numbers of the server as they are. -/
theorem commandGenericReverse_numbers {v r : Variables} (h : commandGenericReverse v = some r) :
    r.offset = v.offset ∧ r.len = v.len := by
  simp only [commandGenericReverse, Option.bind_eq_bind, Option.bind_eq_some_iff] at h
  obtain ⟨_, _, _, _, _, _, hr⟩ := h
  rw [← Option.some.inj hr]
  exact ⟨rfl, rfl⟩

/-- The server, whose variables are `v`, decodes the request that the client has encoded into its
    packet: it gets the name and the numbers, leaves the packet as it is, and ends where the
    encoding ends. -/
def Decodes (buffer fisier scratch : List UInt8) (offset len : Int32) (v : Variables) : Prop :=
  ∃ packet last scratch',
    commandGeneric buffer 1 (fisier ++ [0]) offset len scratch = some (packet, last, scratch') ∧
    ∃ r, commandGenericReverse { v with buffer := packet, currentSize := 1 } = some r ∧
      contents r.fisier = fisier ∧ r.offset = offset ∧ r.len.toInt32 = len ∧
      r.buffer = packet ∧ r.currentSize = last

/-- **Requests.**  For every file name of 1 to 127 characters and all numbers: the server decodes
    what the client has encoded if and only if its variables had the numbers of the request
    before. -/
theorem decodes_iff (buffer fisier scratch : List UInt8) (offset len : Int32) (v : Variables)
    (hfisier : FileName fisier) (hbuffer : buffer.length = MAX_PACKET_SIZE)
    (hscratch : scratch.length = MAX_STRING_SIZE) (hstring : v.fisier.length = MAX_STRING_SIZE)
    (hscratch' : v.scratch.length = MAX_STRING_SIZE) :
    Decodes buffer fisier scratch offset len v ↔ v.offset = offset ∧ v.len.toInt32 = len := by
  constructor
  · rintro ⟨packet, last, -, -, r, hr, -, hoffset, hlen, -⟩
    obtain ⟨hroffset, hrlen⟩ := commandGenericReverse_numbers hr
    exact ⟨hroffset.symm.trans hoffset, hrlen ▸ hlen⟩
  · rintro ⟨rfl, rfl⟩
    obtain ⟨scratch₁, hencode⟩ := commandGeneric_eq v.offset v.len.toInt32 hfisier hbuffer hscratch
    obtain ⟨r, hr, hname, hpacket, hlast⟩ := commandGenericReverse_eq hfisier hbuffer hstring
      hscratch'
    obtain ⟨hroffset, hrlen⟩ := commandGenericReverse_numbers hr
    exact ⟨_, _, scratch₁, hencode, r, hr, hname, hroffset, by rw [hrlen], hpacket, hlast⟩

/-- The server with the given numbers in its variables, and empty arrays. -/
def variablesWith (offset : Int32) (len : UInt32) : Variables where
  buffer := []
  currentSize := 1
  size := 0
  fisier := List.replicate MAX_STRING_SIZE 0
  offset := offset
  len := len
  scratch := List.replicate MAX_STRING_SIZE 0

/-- A request for 16 bytes from 0 on, to a server that has these numbers already. -/
theorem decodes_iff_same : Decodes (List.replicate MAX_PACKET_SIZE 0) [97]
    (List.replicate MAX_STRING_SIZE 0) 0 16 (variablesWith 0 16) :=
  (decodes_iff _ [97] _ 0 16 (variablesWith 0 16) ⟨by decide, by decide, by decide⟩
    List.length_replicate List.length_replicate List.length_replicate
    List.length_replicate).mpr ⟨rfl, rfl⟩

/-- **The numbers are not decoded.**  A request for offset 1 reaches a server whose variable is
    0. -/
theorem not_decodes : ¬ ∀ (fisier : List UInt8) (offset len : Int32) (v : Variables),
    FileName fisier → v.fisier.length = MAX_STRING_SIZE → v.scratch.length = MAX_STRING_SIZE →
      Decodes (List.replicate MAX_PACKET_SIZE 0) fisier (List.replicate MAX_STRING_SIZE 0)
        offset len v := by
  intro h
  obtain ⟨_, _, _, _, r, hr, _, hoffset, _⟩ := h [97] 1 16 (variablesWith 0 16)
    ⟨by decide, by decide, by decide⟩ List.length_replicate List.length_replicate
  have hzero : r.offset = 0 := (commandGenericReverse_numbers hr).1
  exact absurd (hzero.symm.trans hoffset) (by decide)

end WorkAtUPB.FilesServer
