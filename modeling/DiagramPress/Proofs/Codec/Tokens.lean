-- The tokens that are found for some bytes stand for these bytes, and each of
-- them has a length and a distance that the compressed form can write.
import DiagramPress.Codec.Tokens

namespace DiagramPress.Codec

namespace Token

/-! ## What lists of tokens stand for -/

/-- Adds what the tokens stand for, one after the other. -/
def expandAll (out : Array UInt8) : List Token → Option (Array UInt8)
  | [] => some out
  | t :: rest => (t.expand? out).bind fun out => expandAll out rest

theorem expandAll_append (out : Array UInt8) (a b : List Token) :
    expandAll out (a ++ b) = (expandAll out a).bind fun out => expandAll out b := by
  induction a generalizing out with
  | nil => rfl
  | cons t a ih =>
    simp only [List.cons_append, expandAll, Option.bind_assoc]
    exact congrArg _ (funext ih)

/-- The compressed form can write the token. -/
def Fits : Token → Prop
  | literal _ => True
  | copy length distance =>
    (leastLength ≤ length ∧ length ≤ greatestLength) ∧ 0 < distance ∧ distance ≤ greatestDistance

/-! ## Copies -/

variable {bytes : Array UInt8}

/-- The same bytes stand at two places. -/
def SameAt (bytes : Array UInt8) (j i : Nat) : Prop :=
  ∃ b, bytes[j]? = some b ∧ bytes[i]? = some b

theorem common_le (limit j i : Nat) : common bytes limit j i ≤ limit := by
  induction limit generalizing j i with
  | zero => exact Nat.le_refl 0
  | succ limit ih =>
    unfold common
    split
    · split
      · exact Nat.succ_le_succ (ih (j + 1) (i + 1))
      · exact Nat.zero_le _
    · exact Nat.zero_le _

theorem sameAt_of_lt_common {limit j i k : Nat} (h : k < common bytes limit j i) :
    SameAt bytes (j + k) (i + k) := by
  induction limit generalizing j i k with
  | zero => exact absurd h (Nat.not_lt_zero k)
  | succ limit ih =>
    unfold common at h
    split at h
    · rename_i a b ha hb
      split at h
      · rename_i heq
        cases k with
        | zero => exact ⟨a, ha, heq ▸ hb⟩
        | succ k =>
          have := ih (Nat.lt_of_succ_lt_succ h)
          rwa [Nat.add_right_comm, Nat.add_right_comm i] at this
      · exact absurd h (Nat.not_lt_zero k)
    · exact absurd h (Nat.not_lt_zero k)

theorem push_prefix {i : Nat} {b : UInt8} (h : bytes[i]? = some b) :
    (bytes.extract 0 i).push b = bytes.extract 0 (i + 1) := by
  obtain ⟨hlt, rfl⟩ := Array.getElem?_eq_some_iff.mp h
  simp

/-- A copy of bytes that stand in front of a place goes on with what follows the place. -/
theorem copyBytes_prefix {i distance length : Nat} (hpos : 0 < distance) (hle : distance ≤ i)
    (h : ∀ k < length, SameAt bytes (i - distance + k) (i + k)) :
    copyBytes distance length (bytes.extract 0 i) = bytes.extract 0 (i + length) := by
  induction length generalizing i with
  | zero => rfl
  | succ length ih =>
    obtain ⟨b, hfrom, hto⟩ := h 0 (Nat.succ_pos length)
    rw [Nat.add_zero] at hfrom hto
    have hlt : i < bytes.size := (Array.getElem?_eq_some_iff.mp hto).1
    have hsize : (bytes.extract 0 i).size = i := by
      simp
      omega
    have hget : (bytes.extract 0 i).getD ((bytes.extract 0 i).size - distance) 0 = b := by
      rw [hsize, Array.getD_eq_getD_getElem?, Array.getElem?_extract]
      have hback : i - distance < min i bytes.size := by omega
      simp [hback, hfrom]
    rw [copyBytes, hget, push_prefix hto]
    have hstep : i - distance + 1 = i + 1 - distance := by omega
    have hnext := ih (i := i + 1) (by omega) fun k hk => by
      have := h (k + 1) (Nat.succ_lt_succ hk)
      rwa [Nat.add_comm k 1, ← Nat.add_assoc, ← Nat.add_assoc, hstep] at this
    rw [hnext]
    congr 1
    omega

/-! ## The tokens of some bytes -/

/-- A place in front of `i`, near enough for a copy of so many bytes. -/
def CanCopy (bytes : Array UInt8) (i length j : Nat) : Prop :=
  length ≤ greatestLength ∧ j < i ∧ i - j ≤ greatestDistance ∧
    ∀ k < length, SameAt bytes (j + k) (i + k)

theorem longest_spec (i : Nat) (places : List Nat) :
    0 < (longest bytes i places).1 →
      CanCopy bytes i (longest bytes i places).1 (longest bytes i places).2 := by
  -- Every place that takes over as the best one can be copied from.
  have hstep (best : Nat × Nat) (hbest : 0 < best.1 → CanCopy bytes i best.1 best.2) :
      let result := places.foldl (fun (best : Nat × Nat) j =>
        let length := common bytes greatestLength j i
        if j < i ∧ i - j ≤ greatestDistance ∧ best.1 < length then (length, j) else best) best
      0 < result.1 → CanCopy bytes i result.1 result.2 := by
    induction places generalizing best with
    | nil => exact hbest
    | cons j places ih =>
      refine ih _ ?_
      dsimp only
      split
      · rename_i h
        exact fun _ => ⟨common_le _ _ _, h.1, h.2.1, fun k hk => sameAt_of_lt_common hk⟩
      · exact hbest
  exact hstep (0, 0) fun h => absurd h (Nat.lt_irrefl 0)

/-- The tokens stand for the bytes in front of `i`, and can all be written. -/
structure StandsFor (bytes : Array UInt8) (i : Nat) (tokens : List Token) : Prop where
  expands : expandAll #[] tokens = some (bytes.extract 0 i)
  fits : ∀ t ∈ tokens, t.Fits

theorem StandsFor.append {i next : Nat} {tokens : List Token} {t : Token}
    (h : StandsFor bytes i tokens) (hfits : t.Fits)
    (ht : t.expand? (bytes.extract 0 i) = some (bytes.extract 0 next)) :
    StandsFor bytes next (tokens ++ [t]) where
  expands := by
    rw [expandAll_append, h.expands, Option.bind_some, expandAll, ht, Option.bind_some, expandAll]
  fits := by
    intro x hx
    rcases List.mem_append.mp hx with hx | hx
    · exact h.fits x hx
    · exact List.mem_singleton.mp hx ▸ hfits

theorem standsFor_literal {i : Nat} {tokens : List Token} {b : UInt8}
    (h : StandsFor bytes i tokens) (hb : bytes[i]? = some b) :
    StandsFor bytes (i + 1) (tokens ++ [literal b]) := by
  refine h.append trivial ?_
  rw [expand?, push_prefix hb]

theorem standsFor_copy {i length j : Nat} {tokens : List Token} (h : StandsFor bytes i tokens)
    (hlt : i < bytes.size) (hleast : leastLength ≤ length) (hcopy : CanCopy bytes i length j) :
    StandsFor bytes (i + length) (tokens ++ [copy length (i - j)]) := by
  obtain ⟨hgreatest, hj, hdistance, hsame⟩ := hcopy
  have hpos : 0 < i - j := by omega
  refine h.append ⟨⟨hleast, hgreatest⟩, hpos, hdistance⟩ ?_
  have hsize : (bytes.extract 0 i).size = i := by
    simp
    omega
  rw [expand?, hsize, if_pos ⟨hpos, Nat.sub_le i j⟩]
  congr 1
  refine copyBytes_prefix hpos (Nat.sub_le i j) fun k hk => ?_
  rw [Nat.sub_sub_self (Nat.le_of_lt hj)]
  exact hsame k hk

theorem StandsFor.at_end {i : Nat} {tokens : List Token} (h : StandsFor bytes i tokens)
    (hi : bytes.size ≤ i) : StandsFor bytes bytes.size tokens := by
  have hextract : bytes.extract 0 i = bytes.extract 0 bytes.size := by
    rw [Array.extract_eq_self_of_le hi, Array.extract_size]
  exact ⟨hextract ▸ h.expands, h.fits⟩

/-- With a step for every byte that is left, the search gets to the end. -/
theorem standsFor_findFrom {fuel i : Nat} {recent : Recent} {found : List Token}
    (hfuel : bytes.size ≤ i + fuel) (h : StandsFor bytes i found.reverse) :
    StandsFor bytes bytes.size (findFrom bytes fuel i recent found) := by
  induction fuel generalizing i recent found with
  | zero => exact h.at_end hfuel
  | succ fuel ih =>
    unfold findFrom
    split
    · rename_i hnone
      exact h.at_end (Array.getElem?_eq_none_iff.mp hnone)
    · rename_i b hb
      have hlt : i < bytes.size := (Array.getElem?_eq_some_iff.mp hb).1
      dsimp only
      split
      · rename_i hleast
        have hpos := Nat.lt_of_lt_of_le (by decide : 0 < leastLength) hleast
        refine ih (by omega) ?_
        rw [List.reverse_cons]
        exact standsFor_copy h hlt hleast (longest_spec i _ hpos)
      · refine ih (by omega) ?_
        rw [List.reverse_cons]
        exact standsFor_literal h hb

/-- The tokens of some bytes stand for all of them. -/
theorem standsFor_find (bytes : Array UInt8) : StandsFor bytes bytes.size (find bytes) := by
  refine standsFor_findFrom (by omega) ⟨?_, by simp⟩
  simp [expandAll]

end Token

end DiagramPress.Codec
