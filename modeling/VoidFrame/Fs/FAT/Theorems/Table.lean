import VoidFrame.Fs.FAT.Table

-- The entries of the table are independent of each other.

namespace FAT1x

variable {t : Buffer} {c d v : UInt16}

def Inside (t : Buffer) (c : UInt16) : Prop :=
  c < 0xFF8 ∧ entryOffset c + 2 ≤ t.size

instance : Decidable (Inside t c) :=
  inferInstanceAs (Decidable (_ ∧ _))

lemma fat12GetNextCluster_eq (h : Inside t c) :
    fat12GetNextCluster t c = .ok (Table12.get t.data c.toNat) := by
  unfold fat12GetNextCluster
  rw [if_neg (UInt16.not_le.mpr h.1)]
  exact Buffer.load_eq h.2

lemma fat12SetFatEntry_eq (h : Inside t c) :
    fat12SetFatEntry t c v = .ok { t with data := Table12.set t.data c.toNat v } :=
  if_pos h.2

-- An entry is what it was set to, up to its 12 bits, no other entry changes, and nothing changes if an
-- entry is set to what it is.
theorem fat12SetFatEntry_lens (t : Buffer) (c d v : UInt16) (hc : Inside t c) (hd : Inside t d) :
    (∃ t' w, fat12SetFatEntry t c v = .ok t' ∧ t'.size = t.size ∧
      fat12GetNextCluster t' c = .ok w ∧ w.toNat = v.toNat % 4096 ∧
      (d ≠ c → fat12GetNextCluster t' d = fat12GetNextCluster t d)) ∧
    ∃ w, fat12GetNextCluster t c = .ok w ∧ fat12SetFatEntry t c w = .ok t := by
  constructor
  · refine ⟨_, _, fat12SetFatEntry_eq hc, rfl, fat12GetNextCluster_eq hc, Table12.get_set_self, ?_⟩
    intro hdc
    have hne : d.toNat ≠ c.toNat := fun h => hdc (UInt16.toNat_inj.mp h)
    rw [fat12GetNextCluster_eq hd, ← Table12.get_set_of_ne hne]
    exact fat12GetNextCluster_eq hd
  · refine ⟨_, fat12GetNextCluster_eq hc, ?_⟩
    rw [fat12SetFatEntry_eq hc, Table12.set_get]

-- Two clusters that share a byte.
theorem fat12SetFatEntry_lens_neighbours :
    Inside (.zero 6) 2 ∧ Inside (.zero 6) 3 ∧
    ∃ t', fat12SetFatEntry (.zero 6) 3 0xFABC = .ok t' ∧
      fat12GetNextCluster t' 2 = fat12GetNextCluster (.zero 6) 2 := by
  have h2 : Inside (.zero 6) 2 := by decide
  have h3 : Inside (.zero 6) 3 := by decide
  obtain ⟨⟨t', w, ht, _, _, _, hd⟩, _⟩ := fat12SetFatEntry_lens (.zero 6) 3 2 0xFABC h3 h2
  exact ⟨h2, h3, t', ht, hd (by decide)⟩

end FAT1x
