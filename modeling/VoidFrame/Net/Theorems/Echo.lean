import VoidFrame.Library.OnesComplement
import VoidFrame.Net.Theorems.Arp

-- The replies to echo requests and their checksums.

namespace Net

open OnesComplement (Folds Verifies words)

section

variable {l front back : List UInt8}

lemma folds_foldCarry (n : Nat) : Folds (foldCarry n) n := by
  induction n using foldCarry.induct
  case case1 n h =>
    rw [foldCarry, if_pos h]
    exact .of_le (by omega)
  case case2 n h ih =>
    rw [foldCarry, if_neg h]
    refine ⟨ih.modEq.trans ?_, ih.le, ih.eq_zero.trans (by omega)⟩
    have he : n = n % 2 ^ 16 + n / 2 ^ 16 + 65535 * (n / 2 ^ 16) := by omega
    conv_rhs => rw [he]
    simp [Nat.ModEq]

lemma checksum_toNat : (checksum l).toNat = 65535 - foldCarry (sumWords l) := by
  have hle := (folds_foldCarry (sumWords l)).le
  rw [checksum, UInt16.toNat_not, UInt16.toNat_ofNat_of_lt' (show _ < 2 ^ 16 by omega)]
  rfl

lemma sumWords_append (h : Even front.length) : sumWords (front ++ back) = sumWords front + sumWords back := by
  induction front using sumWords.induct
  case case1 lo hi l ih =>
    have hl : Even l.length := by simpa [Nat.even_add_one] using h
    rw [List.cons_append, List.cons_append, sumWords, sumWords, ih hl]
    omega
  case case2 b => exact absurd h (by simp)
  case case3 => simp [sumWords]

lemma sumWords_littleEndian (c : UInt16) : sumWords (littleEndian c ++ back) = c.toNat + sumWords back := by
  have h : c.toUInt8.toNat + 256 * (c >>> 8).toUInt8.toNat = c.toNat := by
    have := c.toNat_lt
    rw [UInt16.toNat_toUInt8, UInt16.toNat_toUInt8, UInt16.toNat_shiftRight, Nat.shiftRight_eq_div_pow]
    simp only [UInt16.reduceToNat, Nat.reduceMod, Nat.reducePow]
    omega
  rw [littleEndian, List.cons_append, List.cons_append, List.nil_append, sumWords, h]

-- In the other order of the bytes the sum is the same but for a factor.
lemma sum_words : (words l).sum ≡ 256 * sumWords l [MOD 65535] ∧ ((words l).sum = 0 ↔ sumWords l = 0) := by
  induction l using sumWords.induct
  case case1 b c l ih =>
    rw [words, List.sum_cons, sumWords]
    refine ⟨?_, by have := ih.2; omega⟩
    have he : 256 * (b.toNat + 256 * c.toNat + sumWords l)
        = (256 * b.toNat + c.toNat + 256 * sumWords l) + 65535 * c.toNat := by ring
    rw [he]
    exact (ih.1.add_left _).trans (by simp [Nat.ModEq])
  case case2 b => exact ⟨by simp [words, sumWords, Nat.ModEq], by simp [words, sumWords]⟩
  case case3 => exact ⟨rfl, Iff.rfl⟩

lemma verifies_of_dvd (hd : 65535 ∣ sumWords l) (hn : sumWords l ≠ 0) : Verifies l := by
  have hs : 65535 ∣ (words l).sum :=
    Nat.modEq_zero_iff_dvd.mp (sum_words.1.trans (Nat.modEq_zero_iff_dvd.mpr (Dvd.dvd.mul_left hd 256)))
  exact (OnesComplement.folds_sum OnesComplement.words_le).eq_of_dvd hs (mt sum_words.2.mp hn)

-- A message verifies with the checksum that was computed while its field was 0.
lemma verifies_checksum (front back : List UInt8) (h : Even front.length) :
    Verifies (front ++ littleEndian (checksum (front ++ littleEndian 0 ++ back)) ++ back) := by
  have hs : ∀ c, sumWords (front ++ littleEndian c ++ back) = sumWords front + (c.toNat + sumWords back) := by
    intro c
    rw [List.append_assoc, sumWords_append h, sumWords_littleEndian]
  have hf := folds_foldCarry (sumWords (front ++ littleEndian 0 ++ back))
  have hc : sumWords (front ++ littleEndian (checksum (front ++ littleEndian 0 ++ back)) ++ back)
      = sumWords (front ++ littleEndian 0 ++ back) + (65535 - foldCarry (sumWords (front ++ littleEndian 0 ++ back))) := by
    rw [hs, checksum_toNat, hs 0, show (0 : UInt16).toNat = 0 from rfl]
    omega
  refine verifies_of_dvd ?_ ?_
  · rw [hc]
    exact hf.dvd_add
  · rw [hc]
    exact hf.add_ne_zero

end

section

variable {s : State} {f : Frame} {len : UInt16} {ip icmp : Nat} {mac : List UInt8}

lemma arpResolveIn_found (h : ((arpResolveIn f ip l).run s).1 = some mac) :
    ∃ events, (arpResolveIn f ip l).run s = (some mac, { s with events }) := by
  induction l generalizing s
  case nil => cases h
  case cons i l ih =>
    unfold arpResolveIn at h ⊢
    by_cases hs : (s.arpCache i).state = .resolved
    case neg =>
      simp only [StateT.run_bind, StateT.run_get, pure_bind, if_neg hs] at h ⊢
      exact ih h
    simp only [StateT.run_bind, StateT.run_get, pure_bind, if_pos hs] at h ⊢
    by_cases hi : (s.arpCache i).ip = f.bytes ip 4
    case pos =>
      rw [if_pos hi] at h ⊢
      exact ⟨_, Prod.ext h rfl⟩
    rw [if_neg hi] at h ⊢
    exact ih (s := { s with events := s.events ++ [.read f.received ip 4] }) h

lemma verifies_ipHeader (protocol : UInt8) (dest : List UInt8) (totalLen : UInt16) :
    Verifies (ipHeader protocol dest totalLen (checksum (ipHeader protocol dest totalLen 0))) := by
  have h := verifies_checksum ([0x45, 0] ++ bigEndian totalLen ++ bigEndian 1 ++ [0, 0, 64, protocol]) (ownIp ++ dest)
    (by simp [bigEndian]; decide)
  simpa [ipHeader] using h

lemma verifies_echoReply : Verifies (echoReply f icmp len) := by
  have h := verifies_checksum [icmpTypeEchoReply, 0]
    (f.bytes (icmp + 4) 4 ++ f.bytes (icmp + icmpHeaderSize) (len.toNat - icmpHeaderSize)) (by decide)
  simpa [echoReply] using h

@[simp]
lemma length_bytes : (f.bytes offset count).length = count := by
  simp [Frame.bytes]

lemma narrow_run {n : Nat} (h : n < 2 ^ 16) : (narrow n).run s = (UInt16.ofNat n, s) := by
  have hn : (0 : Int) ≤ n ∧ (n : Int) < 2 ^ 16 := by omega
  unfold narrow
  rw [if_neg (not_not.mpr hn)]
  exact congrArg (·, s) (UInt16.toNat_inj.mp (by simp [UInt16.ofInt]; omega))

-- The packet that is handed to the device when the destination is known.
lemma ipSend_sent
    (h : (arpResolve f dest).run s = (some mac, { s with events })) (ht : total.toNat = len.toNat + ipHeaderSize)
    (hl : total.toNat + ethernetHeaderSize < 2 ^ 16) :
    ((ipSend f dest protocol data len).run s).2.sent = s.sent ++ [(mac ++ s.macAddress ++ littleEndian etherIPv4 ++
      (ipHeader protocol (f.bytes dest 4) total (checksum (ipHeader protocol (f.bytes dest 4) total 0)) ++ data)).take
        (total.toNat + ethernetHeaderSize)] := by
  have ht' : UInt16.ofNat (ipHeaderSize + len.toNat) = total := by rw [Nat.add_comm, ← ht, UInt16.ofNat_toNat]
  have h1 : ∀ s, (narrow (ipHeaderSize + len.toNat)).run s = (total, s) := fun s =>
    ht' ▸ narrow_run (show ipHeaderSize + len.toNat < 2 ^ 16 by omega)
  have h2 : ∀ s, (narrow (ethernetHeaderSize + total.toNat)).run s
      = (UInt16.ofNat (ethernetHeaderSize + total.toNat), s) := fun s => narrow_run (by omega)
  have h3 : (UInt16.ofNat (ethernetHeaderSize + total.toNat)).toNat = total.toNat + ethernetHeaderSize := by
    rw [UInt16.toNat_ofNat_of_lt' (show _ < 2 ^ 16 by omega), Nat.add_comm]
  unfold ipSend
  rw [Effect.run_bind, h, Effect.run_bind, h1, Effect.run_bind, Effect.run_bind, h2, ← h3]
  rfl

lemma icmpHandlePacket_run (s : State) (ip : Nat) (hl : icmpHeaderSize ≤ len.toNat)
    (ht : f.data icmp = icmpTypeEchoRequest) :
    ∃ events, (icmpHandlePacket f ip icmp len).run s
      = (ipSend f (ip + 12) ipProtocolICMP (echoReply f icmp len) len).run { s with events } := by
  unfold icmpHandlePacket
  rw [if_neg (not_lt.mpr hl), if_pos ht]
  exact ⟨_, rfl⟩

-- Every echo request is answered by a frame whose header and whose message verify.
theorem icmpHandlePacket_replies (s : State) (f : Frame) (ip icmp : Nat) (len : UInt16) (mac : List UInt8)
    (hl : 8 ≤ len.toNat) (hu : len.toNat ≤ 65501) (ht : f.data icmp = icmpTypeEchoRequest)
    (hr : ((arpResolve f (ip + 12)).run s).1 = some mac) (hm : mac.length = 6) (hs : s.macAddress.length = 6) :
    ∃ header message,
      ((icmpHandlePacket f ip icmp len).run s).2.sent
        = s.sent ++ [mac ++ s.macAddress ++ [0x08, 0x00] ++ header ++ message] ∧
      header.length = 20 ∧ Verifies header ∧
      (∃ total : UInt16, total.toNat = len.toNat + 20 ∧ (header.drop 2).take 2 = bigEndian total) ∧
      message.length = len.toNat ∧ Verifies message ∧ message.take 2 = [0, 0] ∧
      message.drop 4 = f.bytes (icmp + 4) 4 ++ f.bytes (icmp + 8) (len.toNat - 8) := by
  have ht' : (UInt16.ofNat (len.toNat + 20)).toNat = len.toNat + 20 :=
    UInt16.toNat_ofNat_of_lt' (show _ < 2 ^ 16 by omega)
  have hlen : (echoReply f icmp len).length = len.toNat := by
    simp [echoReply, littleEndian, icmpHeaderSize]
    omega
  obtain ⟨events, he⟩ := icmpHandlePacket_run s ip hl ht
  -- What is observed does not change the answer of the cache.
  have hr' : ((arpResolve f (ip + 12)).run { s with events }).1 = some mac :=
    (arpResolveIn_run _ _).1.trans ((arpResolveIn_run _ s).1.symm.trans hr)
  obtain ⟨events', hf⟩ := arpResolveIn_found hr'
  refine ⟨_, echoReply f icmp len, ?_, ?_, verifies_ipHeader ipProtocolICMP (f.bytes (ip + 12) 4)
    (UInt16.ofNat (len.toNat + 20)), ⟨_, ht', ?_⟩, hlen, verifies_echoReply, rfl, ?_⟩
  · rw [he, ipSend_sent hf ht' (by rw [ht']; simp [ethernetHeaderSize]; omega), List.take_of_length_le]
    · simp [littleEndian, etherIPv4]
      decide
    · simp [ipHeader, littleEndian, bigEndian, ownIp, hm, hs, hlen, ethernetHeaderSize]
      omega
  · simp [ipHeader, littleEndian, bigEndian, ownIp]
  · simp [ipHeader, bigEndian]
  · simp [echoReply, littleEndian, icmpHeaderSize]

-- A request of 9 bytes by a sender that is in the cache.
theorem icmpHandlePacket_replies_sample : ∃ header message,
    ((icmpHandlePacket ⟨echoRequest, 43⟩ 14 34 9).run
        { idle with arpCache := fun _ => ⟨[0, 0, 0, 0], [7, 0, 0, 0, 0, 0], .resolved⟩ }).2.sent
      = [[7, 0, 0, 0, 0, 0] ++ [2, 0, 0, 0, 0, 1] ++ [0x08, 0x00] ++ header ++ message] ∧
    Verifies header ∧ message.length = 9 ∧ Verifies message := by
  obtain ⟨header, message, hs, -, hh, -, hl, hm, -⟩ := icmpHandlePacket_replies
    { idle with arpCache := fun _ => ⟨[0, 0, 0, 0], [7, 0, 0, 0, 0, 0], .resolved⟩ } ⟨echoRequest, 43⟩ 14 34 9
    [7, 0, 0, 0, 0, 0] (by decide) (by decide) rfl rfl rfl rfl
  exact ⟨header, message, hs, hh, hl, hm⟩

end

end Net
