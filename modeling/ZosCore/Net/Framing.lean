import Mathlib.Data.List.GetD
import ZosCore.Lib.Streams

/-!
`net/message_oriented_connection.cpp`, `net/stcp_socket.cpp`: messages on a connection.

A message goes out as its header, its data and a padding, and the whole is a multiple of 16 bytes, as
the socket below encrypts blocks of 16 bytes. The receiver reads the first block, takes the size from
it and reads the rest.

* `Cipher`: what is assumed of the AES encoder and decoder.
* `Sender`, `sendMessage`; `Receiver`, `readMessage`, `readLoop`: the two ends. The bytes that the
  first has sent reach the second in order, in parts of any size.
* **`readLoop_sendMessages`**: what is received is what was sent.
-/

namespace ZosCore.Net

open Streams

/-- `aes_encoder` and `aes_decoder`, over blocks of 16 bytes. -/
abbrev Cipher := CipherPair UInt8 16

/-! ### Messages -/

/-- `message`, with its header. -/
structure Message where
  size : UInt32
  msgType : UInt32
  data : List UInt8
  deriving DecidableEq, Repr

/-- `MAX_MESSAGE_SIZE`. -/
def maxMessageSize : ℕ := 1024 * 1024 * 2

/-- `sizeof(message_header)`. -/
def headerSize : ℕ := 8

/-- `LEFTOVER`: the bytes of data that are in the first block. -/
def leftover : ℕ := 16 - headerSize

/-- A number in memory, the lowest byte first. -/
def bytesOf (n : UInt32) : List UInt8 :=
  [.ofNat n.toNat, .ofNat (n.toNat / 2 ^ 8), .ofNat (n.toNat / 2 ^ 16), .ofNat (n.toNat / 2 ^ 24)]

/-- The number that is in memory at this place. -/
def numberAt (buffer : List UInt8) (i : ℕ) : UInt32 :=
  .ofNat ((buffer.getD i 0).toNat + (buffer.getD (i + 1) 0).toNat * 2 ^ 8 +
    (buffer.getD (i + 2) 0).toNat * 2 ^ 16 + (buffer.getD (i + 3) 0).toNat * 2 ^ 24)

/-- The message in memory, up to its data. -/
def Message.header (m : Message) : List UInt8 := bytesOf m.size ++ bytesOf m.msgType

/-! ### Sending -/

/-- A socket that is written to: the encoder, what has been written to the connection, and the lengths
that were asked for. -/
structure Sender (A : Cipher) where
  aes : A.Encoder
  wire : List UInt8 := []
  asked : List ℕ := []

namespace Sender

variable {A : Cipher}

/-- `stcp_socket::writesome`: how many bytes were written. -/
def writesome (buffer : List UInt8) (s : Sender A) : ℕ × Sender A :=
  let len := min 4096 buffer.length
  let (ciphertext, aes) := A.encode s.aes (buffer.take len)
  (ciphertext.length, ⟨aes, s.wire ++ ciphertext, s.asked ++ [buffer.length]⟩)

/-- `ostream::write`, for so many calls of `writesome` at most. -/
def write : ℕ → List UInt8 → Sender A → Sender A
  | 0, _, s => s
  | fuel + 1, buffer, s =>
      if buffer = [] then s
      else
        let (written, s) := s.writesome buffer
        write fuel (buffer.drop written) s

/-- `size_with_padding`. -/
def sizeWithPadding (m : Message) : ℕ := 16 * ((headerSize + m.size.toNat + 15) / 16)

/-- The buffer that `send_message` fills; `new` has left `junk` in it. -/
def paddedMessage (m : Message) (junk : ℕ → UInt8) : List UInt8 :=
  m.header ++ m.data.take m.size.toNat ++
    (List.range (sizeWithPadding m - headerSize - m.size.toNat)).map junk

/-- `send_message`. -/
def sendMessage (m : Message) (junk : ℕ → UInt8) (s : Sender A) : Sender A :=
  let padded := paddedMessage m junk
  s.write padded.length padded

/-- One message after the other. -/
def sendMessages (l : List (Message × (ℕ → UInt8))) (s : Sender A) : Sender A :=
  l.foldl (fun s m => s.sendMessage m.1 m.2) s

end Sender

/-! ### Receiving -/

/-- A socket that is read from: the decoder, the bytes that are still to come, the lengths of the parts
in which they come, and the lengths that were asked for. -/
structure Receiver (A : Cipher) where
  aes : A.Decoder
  incoming : List UInt8
  parts : ℕ → ℕ
  asked : List ℕ := []

/-- Why `read_loop` has ended; `running` if it has not. -/
inductive Ending where
  | running
  | eof
  | tooLarge
  deriving DecidableEq, Repr

namespace Receiver

variable {A : Cipher}

/-- `tcp_socket::readsome`: at least one byte, or the end of the stream. -/
def tcpReadsome (len : ℕ) (r : Receiver A) : Option (List UInt8) × Receiver A :=
  if r.incoming = [] then (none, r)
  else
    let n := max 1 (min (r.parts 0) (min len r.incoming.length))
    (some (r.incoming.take n),
      { r with incoming := r.incoming.drop n, parts := fun i => r.parts (i + 1) })

/-- `stcp_socket::readsome`. -/
def readsome (len : ℕ) (r : Receiver A) : Option (List UInt8) × Receiver A :=
  let r := { r with asked := r.asked ++ [len] }
  match r.tcpReadsome (min 4096 len) with
  | (none, r) => (none, r)
  | (some part, r) =>
      -- the block that the part ends in is completed
      let missing := if part.length % 16 = 0 then 0 else 16 - part.length % 16
      match readAll tcpReadsome missing missing r with
      | (none, r) => (none, r)
      | (some more, r) =>
          let (plain, aes) := A.decode r.aes (part ++ more)
          (some plain, { r with aes := aes })

/-- `istream::read`. -/
def read (len : ℕ) (r : Receiver A) : Option (List UInt8) × Receiver A := readAll readsome len len r

/-- `remaining_bytes_with_padding`, which is computed in 32 bits. -/
def remainingBytesWithPadding (size : UInt32) : ℕ :=
  (16 * ((size - .ofNat leftover + 15) / 16)).toNat

/-- `vector::resize`. -/
def resize (n : ℕ) (l : List UInt8) : List UInt8 := l.take n ++ List.replicate (n - l.length) 0

/-- One round of `read_loop`: a message, or why there is none. -/
def readMessage (r : Receiver A) : Except Ending Message × Receiver A :=
  match r.read 16 with
  | (none, r) => (.error .eof, r)
  | (some buffer, r) =>
      let size := numberAt buffer 0
      let msgType := numberAt buffer 4
      if maxMessageSize < size.toNat then (.error .tooLarge, r)
      else if remainingBytesWithPadding size = 0 then
        (.ok ⟨size, msgType, resize size.toNat (buffer.drop headerSize)⟩, r)
      else
        match r.read (remainingBytesWithPadding size) with
        | (none, r) => (.error .eof, r)
        | (some rest, r) =>
            (.ok ⟨size, msgType, resize size.toNat (buffer.drop headerSize ++ rest)⟩, r)

/-- `read_loop`, for so many rounds: the messages that were given to `on_message`, and how it ended. -/
def readLoop : ℕ → Receiver A → List Message × Ending × Receiver A
  | 0, r => ([], .running, r)
  | fuel + 1, r =>
      match r.readMessage with
      | (.error ending, r) => ([], ending, r)
      | (.ok m, r) =>
          let (messages, ending, r) := readLoop fuel r
          (m :: messages, ending, r)

end Receiver

/-! ### Numbers in memory -/

@[simp] lemma bytesOf_length (n : UInt32) : (bytesOf n).length = 4 := rfl

@[simp] lemma header_length (m : Message) : m.header.length = headerSize := rfl

/-- What is written is what is read. -/
lemma numberAt_bytesOf (n : UInt32) (before after : List UInt8) :
    numberAt (before ++ bytesOf n ++ after) before.length = n := by
  have hget : ∀ i < 4, (before ++ bytesOf n ++ after).getD (before.length + i) 0 =
      (bytesOf n).getD i 0 := by
    intro i hi
    rw [List.append_assoc, List.getD_append_right _ _ _ _ (by omega),
      List.getD_append _ _ _ _ (by simp; omega)]
    congr 1
    omega
  have hn := n.toNat_lt
  rw [numberAt, ← Nat.add_zero before.length]
  simp only [Nat.add_assoc, hget _ (show 0 < 4 by omega), hget _ (show 0 + 1 < 4 by omega),
    hget _ (show 0 + 2 < 4 by omega), hget _ (show 0 + 3 < 4 by omega)]
  refine UInt32.toNat.inj ?_
  simp [bytesOf]
  omega

/-! ### What is sent -/

/-- The lengths that `readsome` and `writesome` assert. -/
def WholeBlocks (l : List ℕ) : Prop := ∀ n ∈ l, 0 < n ∧ 16 ∣ n

lemma WholeBlocks.concat {l : List ℕ} {n : ℕ} (h : WholeBlocks l) (hn : 0 < n) (hwhole : 16 ∣ n) :
    WholeBlocks (l ++ [n]) := by
  intro k hk
  rcases List.mem_append.mp hk with hk | hk
  · exact h k hk
  · obtain rfl := List.mem_singleton.mp hk
    exact ⟨hn, hwhole⟩

/-- What is read after the first block, if the size is allowed: the subtraction may go below zero, and
the addition comes back. -/
lemma remainingBytesWithPadding_eq {size : UInt32} (h : size.toNat ≤ maxMessageSize) :
    Receiver.remainingBytesWithPadding size = 16 * ((size.toNat + 7) / 16) := by
  have hsize : size.toNat ≤ 2097152 := h
  have hsub : (size - 8 : UInt32).toNat = (2 ^ 32 - 8 + size.toNat) % 2 ^ 32 := by
    simp [UInt32.toNat_sub]
  have hround : Receiver.remainingBytesWithPadding size =
      16 * (((size - 8 : UInt32).toNat + 15) % 2 ^ 32 / 16) % 2 ^ 32 := by
    simp [Receiver.remainingBytesWithPadding, leftover, headerSize]
  rw [hround, hsub]
  omega

namespace Sender

variable {A : Cipher} {s : Sender A} {d : A.Decoder} {plain buffer : List UInt8} {m : Message}
  {junk : ℕ → UInt8}

lemma writesome_spec (h : A.Carries s.aes d s.wire plain) (hlen : 16 ∣ buffer.length) :
    (s.writesome buffer).1 = min 4096 buffer.length ∧
      A.Carries (s.writesome buffer).2.aes d (s.writesome buffer).2.wire
        (plain ++ buffer.take (min 4096 buffer.length)) ∧
      (s.writesome buffer).2.asked = s.asked ++ [buffer.length] := by
  have hpart : (buffer.take (min 4096 buffer.length)).length = min 4096 buffer.length := by simp
  have hwhole : 16 ∣ (buffer.take (min 4096 buffer.length)).length := by
    rw [hpart]
    omega
  refine ⟨?_, h.encode hwhole, rfl⟩
  rw [← hpart]
  exact A.encode_length _ _ hwhole

/-- **Everything is written**, in parts of whole blocks. -/
lemma write_spec {fuel : ℕ} (h : A.Carries s.aes d s.wire plain) (hasked : WholeBlocks s.asked)
    (hlen : 16 ∣ buffer.length) (hfuel : buffer.length ≤ fuel) :
    A.Carries (s.write fuel buffer).aes d (s.write fuel buffer).wire (plain ++ buffer) ∧
      WholeBlocks (s.write fuel buffer).asked := by
  induction fuel generalizing s plain buffer with
  | zero =>
      obtain rfl : buffer = [] := List.length_eq_zero_iff.mp (by omega)
      simpa [write] using ⟨h, hasked⟩
  | succ fuel ih =>
      by_cases hempty : buffer = []
      · simpa [write, hempty] using ⟨h, hasked⟩
      · obtain ⟨hwritten, hcarries, hnow⟩ := writesome_spec h hlen
        have hpos : 0 < buffer.length := List.length_pos_iff.mpr hempty
        have hasked' : WholeBlocks (s.writesome buffer).2.asked := by
          rw [hnow]
          exact hasked.concat hpos hlen
        have hwhole : 16 ∣ (buffer.drop (min 4096 buffer.length)).length := by
          rw [List.length_drop]
          omega
        have hrest := ih hcarries hasked' hwhole (by rw [List.length_drop]; omega)
        rw [List.append_assoc, List.take_append_drop] at hrest
        rw [write, if_neg hempty]
        simpa [hwritten] using hrest

/-- The data and the padding behind the header. -/
def body (m : Message) (junk : ℕ → UInt8) : List UInt8 :=
  m.data.take m.size.toNat ++ (List.range (sizeWithPadding m - headerSize - m.size.toNat)).map junk

lemma paddedMessage_eq : paddedMessage m junk = m.header ++ body m junk := by
  rw [paddedMessage, body, List.append_assoc]

/-- A message is sent whose size is that of its data. -/
def Fits (m : Message) : Prop := m.size.toNat = m.data.length ∧ m.data.length ≤ maxMessageSize

lemma body_length (h : Fits m) :
    (body m junk).length = leftover + Receiver.remainingBytesWithPadding m.size := by
  rw [remainingBytesWithPadding_eq (h.1.trans_le h.2)]
  simp only [body, List.length_append, List.length_take, List.length_map, List.length_range, h.1,
    min_self, sizeWithPadding, headerSize, leftover]
  omega

end Sender

/-! ### What is received -/

namespace Receiver

variable {A : Cipher} {r : Receiver A} {len : ℕ}

/-- The bytes that are still to come, when they are decoded. -/
def plain (r : Receiver A) : List UInt8 := (A.decode r.aes r.incoming).1

/-- The bytes that are still to come are whole blocks. -/
def Whole (r : Receiver A) : Prop := 16 ∣ r.incoming.length

lemma plain_length (h : r.Whole) : r.plain.length = r.incoming.length := A.decode_length _ _ h

lemma tcpReadsome_of_nil (h : r.incoming = []) : r.tcpReadsome len = (none, r) := by
  simp [tcpReadsome, h]

/-- The connection gives what comes next, and nothing else changes. -/
lemma tcpReadsome_spec (h : r.incoming ≠ []) (hlen : 0 < len) :
    ∃ n parts, r.tcpReadsome len = (some (r.incoming.take n),
        { r with incoming := r.incoming.drop n, parts := parts }) ∧
      0 < n ∧ n ≤ len ∧ n ≤ r.incoming.length := by
  have hpos : 0 < r.incoming.length := List.length_pos_iff.mpr h
  exact ⟨max 1 (min (r.parts 0) (min len r.incoming.length)), fun i => r.parts (i + 1),
    by simp [tcpReadsome, h], by omega, by omega, by omega⟩

/-- The connection gives a part of what comes next, while the rest of the socket stays. -/
lemma tcpReadsome_delivers (aes : A.Decoder) (asked : List ℕ) :
    Delivers (tcpReadsome (A := A)) 1 (fun r => r.aes = aes ∧ r.asked = asked) (·.incoming) := by
  rintro r n ⟨haes, hasked⟩ hn - hle
  have hle : n ≤ r.incoming.length := hle
  obtain ⟨k, parts, hread, hk, hkn, hkl⟩ := tcpReadsome_spec (r := r)
    (List.ne_nil_of_length_pos (by omega)) hn
  refine ⟨_, _, hread, ⟨haes, hasked⟩, (List.take_append_drop k _).symm, ?_, ?_, one_dvd _⟩ <;>
    simp only [List.length_take] <;> omega

/-- **A part of the stream**: whole blocks that come next, decoded. -/
lemma readsome_spec (hlen : 0 < len) (hwhole : 16 ∣ len) (hle : len ≤ r.incoming.length) :
    ∃ n parts, r.readsome len = (some (A.decode r.aes (r.incoming.take n)).1,
        ⟨(A.decode r.aes (r.incoming.take n)).2, r.incoming.drop n, parts, r.asked ++ [len]⟩) ∧
      0 < n ∧ n ≤ len ∧ 16 ∣ n := by
  have hasks : 0 < min 4096 len := by omega
  obtain ⟨k, parts, hread, hk, hkn, hkl⟩ := tcpReadsome_spec
    (r := { r with asked := r.asked ++ [len] })
    (List.ne_nil_of_length_pos (l := r.incoming) (by omega)) hasks
  have hpart : (r.incoming.take k).length = k := by
    rw [List.length_take]
    exact min_eq_left hkl
  have hkl : k ≤ r.incoming.length := hkl
  set missing := if k % 16 = 0 then 0 else 16 - k % 16 with hmissing
  have hround : k + missing ≤ min 4096 len ∧ 16 ∣ k + missing := by
    rw [hmissing]
    split_ifs <;> omega
  obtain ⟨r', hmore, ⟨haes, hasked⟩, hrest⟩ := readAll_spec
    (tcpReadsome_delivers r.aes (r.asked ++ [len]))
    (s := ⟨r.aes, r.incoming.drop k, parts, r.asked ++ [len]⟩) ⟨rfl, rfl⟩ (one_dvd _)
    (by simp only [List.length_drop]; omega) (le_refl missing)
  refine ⟨k + missing, r'.parts, ?_, by omega, by omega, hround.2⟩
  rw [readsome, hread]
  simp only [hpart, ← hmissing, hmore, ← List.take_add]
  rw [haes]
  refine Prod.ext rfl ?_
  simp only at hrest
  rw [List.drop_drop] at hrest
  simp only [← hrest, ← hasked]

lemma readsome_delivers :
    Delivers (readsome (A := A)) 16 (fun r => r.Whole ∧ WholeBlocks r.asked) plain := by
  rintro r n ⟨hr, hasked⟩ hn hwhole hle
  rw [plain_length hr] at hle
  obtain ⟨k, parts, hread, hk, hkn, hblock⟩ := readsome_spec hn hwhole hle
  have htake : (r.incoming.take k).length = k := by
    rw [List.length_take]
    omega
  have hblock' : 16 ∣ (r.incoming.take k).length := by rwa [htake]
  have hdrop : 16 ∣ (r.incoming.drop k).length := by
    rw [List.length_drop]
    exact Nat.dvd_sub hr hblock
  have happend := A.decode_append r.aes (r.incoming.take k) (r.incoming.drop k) hblock' hdrop
  have hpart : (A.decode r.aes (r.incoming.take k)).1.length = k := by
    rw [A.decode_length _ _ hblock', htake]
  rw [List.take_append_drop] at happend
  refine ⟨_, _, hread, ⟨hdrop, hasked.concat hn hwhole⟩, ?_, ?_, ?_, ?_⟩
  · rw [plain, happend]
    rfl
  · rwa [hpart]
  · rwa [hpart]
  · rwa [hpart]

/-- **What is read is what comes next.** -/
lemma read_spec (hr : r.Whole) (hasked : WholeBlocks r.asked) (hwhole : 16 ∣ len)
    (hle : len ≤ r.plain.length) :
    ∃ r' : Receiver A, r.read len = (some (r.plain.take len), r') ∧ r'.Whole ∧
      WholeBlocks r'.asked ∧ r'.plain = r.plain.drop len := by
  obtain ⟨r', hread, ⟨hr', hasked'⟩, hrest⟩ :=
    readAll_spec readsome_delivers ⟨hr, hasked⟩ hwhole hle le_rfl
  exact ⟨r', hread, hr', hasked', hrest⟩

/-- The stream ends where a message would begin. -/
lemma readMessage_of_nil (h : r.incoming = []) (hasked : WholeBlocks r.asked) :
    ∃ r' : Receiver A, r.readMessage = (.error .eof, r') ∧ WholeBlocks r'.asked := by
  have hnone : r.readsome 16 = (none, { r with asked := r.asked ++ [16] }) := by
    set r' : Receiver A := { r with asked := r.asked ++ [16] }
    have htcp : r'.tcpReadsome (min 4096 16) = (none, r') := tcpReadsome_of_nil h
    rw [readsome, htcp]
  refine ⟨{ r with asked := r.asked ++ [16] }, ?_, hasked.concat (by omega) dvd_rfl⟩
  rw [readMessage, read, readAll, hnone]

lemma resize_append {data rest : List UInt8} : resize data.length (data ++ rest) = data := by
  simp [resize]

/-- **A message** that was sent is received. -/
lemma readMessage_spec {m : Message} {junk : ℕ → UInt8} {more : List UInt8} (hm : Sender.Fits m)
    (hr : r.Whole) (hasked : WholeBlocks r.asked)
    (hplain : r.plain = Sender.paddedMessage m junk ++ more) :
    ∃ r' : Receiver A, r.readMessage = (.ok m, r') ∧ r'.Whole ∧ WholeBlocks r'.asked ∧
      r'.plain = more := by
  have hsize : m.size.toNat ≤ maxMessageSize := hm.1.trans_le hm.2
  have hremaining := remainingBytesWithPadding_eq hsize
  set remaining := remainingBytesWithPadding m.size with hdef
  obtain ⟨body, hbody⟩ : ∃ body, body = Sender.body m junk := ⟨_, rfl⟩
  have hlength : body.length = 8 + remaining := hbody ▸ Sender.body_length hm
  have hdata : resize m.size.toNat body = m.data := by
    rw [hbody, Sender.body, hm.1, List.take_length]
    exact resize_append
  rw [Sender.paddedMessage_eq, ← hbody] at hplain
  -- the first block has the header and the first bytes of the data
  have hbuffer : r.plain.take 16 = bytesOf m.size ++ (bytesOf m.msgType ++ body.take 8) := by
    rw [hplain, Message.header]
    simp only [List.take_append, List.append_assoc, bytesOf_length, hlength]
    simp [bytesOf]
  obtain ⟨r₁, hread, hr₁, hasked₁, hrest⟩ := read_spec hr hasked (dvd_refl 16) (by
    rw [hplain]
    simp only [List.length_append, header_length, headerSize, hlength]
    omega)
  have hsizeAt : numberAt (r.plain.take 16) 0 = m.size := by
    simpa [hbuffer] using numberAt_bytesOf m.size [] (bytesOf m.msgType ++ body.take 8)
  have htypeAt : numberAt (r.plain.take 16) 4 = m.msgType := by
    simpa [hbuffer] using numberAt_bytesOf m.msgType (bytesOf m.size) (body.take 8)
  have hdrop : (r.plain.take 16).drop headerSize = body.take 8 := by
    rw [hbuffer]
    rfl
  have hrest' : r₁.plain = body.drop 8 ++ more := by
    rw [hrest, hplain, Message.header]
    simp only [List.drop_append, List.append_assoc, bytesOf_length, hlength]
    simp [bytesOf]
  by_cases hnone : remaining = 0
  · -- the message ends in the first block
    have hall : body.take 8 = body := List.take_of_length_le (by omega)
    refine ⟨r₁, ?_, hr₁, hasked₁, ?_⟩
    · rw [readMessage, hread]
      simp only [hsizeAt, htypeAt, hdrop, hall, hdata, if_neg hsize.not_gt, ← hdef, if_pos hnone]
    · rw [hrest', List.drop_eq_nil_of_le (by omega), List.nil_append]
  · have hwhole : 16 ∣ remaining := hremaining ▸ dvd_mul_right 16 _
    obtain ⟨r₂, hread₂, hr₂, hasked₂, hrest₂⟩ := read_spec hr₁ hasked₁ hwhole (by
        rw [hrest', List.length_append, List.length_drop]
        omega)
    have hrestLength : (body.drop 8).length = remaining := by
      rw [List.length_drop]
      omega
    rw [hrest', List.take_left' hrestLength] at hread₂
    refine ⟨r₂, ?_, hr₂, hasked₂, ?_⟩
    · rw [readMessage, hread]
      simp only [hsizeAt, htypeAt, hdrop, if_neg hsize.not_gt, ← hdef, if_neg hnone, hread₂,
        List.take_append_drop, hdata]
    · rw [hrest₂, hrest', List.drop_left' hrestLength]

/-- A header with a larger size: nothing is read behind its block. -/
lemma readMessage_of_tooLarge (hlen : 16 ≤ r.incoming.length)
    (h : maxMessageSize < (numberAt (A.decode r.aes (r.incoming.take 16)).1 0).toNat) :
    ∃ r' : Receiver A, r.readMessage = (.error .tooLarge, r') ∧
      r'.incoming = r.incoming.drop 16 := by
  obtain ⟨n, parts, hread, hpos, hle, hwhole⟩ := readsome_spec (r := r) (by omega) dvd_rfl hlen
  obtain rfl : n = 16 := by omega
  have htake : (r.incoming.take 16).length = 16 := by
    rw [List.length_take]
    omega
  have hpart : (A.decode r.aes (r.incoming.take 16)).1.length = 16 := by
    rw [A.decode_length _ _ (by rw [htake]), htake]
  refine ⟨⟨(A.decode r.aes (r.incoming.take 16)).2, r.incoming.drop 16, parts, r.asked ++ [16]⟩, ?_, rfl⟩
  rw [readMessage, read, readAll, hread]
  simp only [hpart, Nat.sub_self, readAll, List.append_nil, if_pos h]

/-- **The loop** gives the messages to the delegate that were sent, and ends with the stream. -/
lemma readLoop_spec (l : List (Message × (ℕ → UInt8))) (hl : ∀ m ∈ l, Sender.Fits m.1) {rounds : ℕ}
    (hrounds : l.length < rounds) (hr : r.Whole) (hasked : WholeBlocks r.asked)
    (hplain : r.plain = l.flatMap fun m => Sender.paddedMessage m.1 m.2) :
    (r.readLoop rounds).1 = l.map Prod.fst ∧ (r.readLoop rounds).2.1 = .eof ∧
      WholeBlocks (r.readLoop rounds).2.2.asked := by
  induction l generalizing r rounds with
  | nil =>
      obtain ⟨rounds, rfl⟩ : ∃ k, rounds = k + 1 := ⟨rounds - 1, by simp at hrounds; omega⟩
      have hend : r.incoming = [] := by
        rw [← List.length_eq_zero_iff, ← plain_length hr, hplain]
        rfl
      obtain ⟨r', hread, hasked'⟩ := readMessage_of_nil hend hasked
      simpa [readLoop, hread] using hasked'
  | cons m l ih =>
      obtain ⟨rounds, rfl⟩ : ∃ k, rounds = k + 1 := ⟨rounds - 1, by simp at hrounds; omega⟩
      obtain ⟨hm, hl⟩ := List.forall_mem_cons.mp hl
      rw [List.flatMap_cons] at hplain
      obtain ⟨r', hread, hr', hasked', hplain'⟩ := readMessage_spec hm hr hasked hplain
      obtain ⟨hmessages, hending, hlengths⟩ :=
        ih hl (by simpa using hrounds) hr' hasked' hplain'
      simpa [readLoop, hread, hmessages] using ⟨hending, hlengths⟩

end Receiver

/-- What the messages leave on the connection. -/
lemma Sender.sendMessages_spec {A : Cipher} (l : List (Message × (ℕ → UInt8)))
    (hl : ∀ m ∈ l, Sender.Fits m.1) {s : Sender A} {d : A.Decoder} {plain : List UInt8}
    (h : A.Carries s.aes d s.wire plain) (hasked : WholeBlocks s.asked) :
    A.Carries (s.sendMessages l).aes d (s.sendMessages l).wire
        (plain ++ l.flatMap fun m => Sender.paddedMessage m.1 m.2) ∧
      WholeBlocks (s.sendMessages l).asked := by
  induction l generalizing s plain with
  | nil => simpa [sendMessages] using ⟨h, hasked⟩
  | cons m l ih =>
      obtain ⟨hm, hl⟩ := List.forall_mem_cons.mp hl
      have hlength : (paddedMessage m.1 m.2).length =
          16 + Receiver.remainingBytesWithPadding m.1.size := by
        rw [paddedMessage_eq, List.length_append, header_length, body_length hm]
        simp only [headerSize, leftover]
        omega
      have hwhole : 16 ∣ (paddedMessage m.1 m.2).length := by
        rw [hlength, remainingBytesWithPadding_eq (hm.1.trans_le hm.2)]
        omega
      obtain ⟨hcarries, hasked'⟩ := write_spec (s := s) h hasked hwhole le_rfl
      have hrest := ih hl (s := s.sendMessage m.1 m.2) hcarries hasked'
      rwa [List.append_assoc] at hrest

/-- **Messages arrive as they were sent**, whatever the padding is and however the stream is cut into
parts, and all lengths are those of whole blocks; and a header with a larger size ends the connection
before anything is read behind it. -/
theorem readLoop_sendMessages (A : Cipher) {e : A.Encoder} {d : A.Decoder} (h : A.InStep e d) :
    (∀ l : List (Message × (ℕ → UInt8)),
      (∀ m ∈ l, m.1.size.toNat = m.1.data.length ∧ m.1.data.length ≤ maxMessageSize) →
      ∀ (parts : ℕ → ℕ) (rounds : ℕ), l.length < rounds →
        let s := Sender.sendMessages l ({ aes := e } : Sender A)
        let r := Receiver.readLoop rounds ({ aes := d, incoming := s.wire, parts := parts } : Receiver A)
        r.1 = l.map Prod.fst ∧ r.2.1 = .eof ∧ ∀ n ∈ s.asked ++ r.2.2.asked, 0 < n ∧ 16 ∣ n) ∧
    ∀ r : Receiver A, 16 ≤ r.incoming.length →
      maxMessageSize < (numberAt (A.decode r.aes (r.incoming.take 16)).1 0).toNat →
        ∃ r' : Receiver A, r.readMessage = (.error .tooLarge, r') ∧
          r'.incoming = r.incoming.drop 16 := by
  refine ⟨fun l hl parts rounds hrounds => ?_, fun r hlen hlarge =>
    Receiver.readMessage_of_tooLarge hlen hlarge⟩
  obtain ⟨hcarries, hsent⟩ := Sender.sendMessages_spec l hl (s := ({ aes := e } : Sender A))
    (CipherPair.Carries.nil h) (by simp [WholeBlocks])
  rw [List.nil_append] at hcarries
  obtain ⟨hmessages, hending, hreceived⟩ := Receiver.readLoop_spec
    (r := ⟨d, (Sender.sendMessages l ({ aes := e } : Sender A)).wire, parts, []⟩) l hl hrounds
    hcarries.whole (by simp [WholeBlocks]) hcarries.decoded
  exact ⟨hmessages, hending, fun n hn => (List.mem_append.mp hn).elim (hsent n) (hreceived n)⟩

/-- A permutation of blocks that flips bits, chained. -/
def flipping : Cipher :=
  CipherPair.cbc (List.map (· ^^^ 90)) (List.map (· ^^^ 90)) 16 (fun _ => List.length_map _)
    (fun _ => List.length_map _) fun b => by
      simp [List.map_map, Function.comp_def]

/-- A message without data, and one whose data do not end with a block. -/
def twoMessages : List (Message × (ℕ → UInt8)) :=
  [(⟨0, 5000, []⟩, fun _ => 7), (⟨9, 5001, [1, 2, 3, 4, 5, 6, 7, 8, 9]⟩, fun i => .ofNat i)]

/-- They are received, in parts of at most five bytes. -/
theorem readLoop_sendMessages_twoMessages :
    (Receiver.readLoop 3
      (⟨[], (Sender.sendMessages twoMessages (⟨[], [], []⟩ : Sender flipping)).wire,
        fun i => i % 5 + 1, []⟩ : Receiver flipping)).1 =
      [⟨0, 5000, []⟩, ⟨9, 5001, [1, 2, 3, 4, 5, 6, 7, 8, 9]⟩] :=
  ((readLoop_sendMessages flipping (e := []) (d := []) rfl).1 twoMessages
    (by simp [twoMessages, maxMessageSize]) (fun i => i % 5 + 1) 3 (by simp [twoMessages])).1

end ZosCore.Net
