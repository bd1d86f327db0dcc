-- The compressed form gives the bytes back: every code is found again at the
-- start of the bits it was written in front of, so every token and the block are.
import DiagramPress.Codec.Deflate
import DiagramPress.Proofs.Codec.Bits
import DiagramPress.Proofs.Codec.Tokens

namespace DiagramPress.Codec

/-! ## Classes of numbers -/

/-- Each class reaches at least to the least number of the next one, the last
one to the limit. -/
def reachTo (limit : Nat) : List NumberClass → Bool
  | [] => false
  | [c] => decide (limit ≤ c.least + 2 ^ c.width)
  | c :: next :: rest => decide (next.least ≤ c.least + 2 ^ c.width) && reachTo limit (next :: rest)

/-- The class of a number has room for it. -/
theorem classOf_spec {classes : List NumberClass} {limit n : Nat}
    (hreach : reachTo limit classes = true) (hlimit : n < limit)
    (hfirst : ∀ c ∈ classes.head?, c.least ≤ n) :
    ∃ c, classes[classOf classes n]? = some c ∧ c.least ≤ n ∧ n < c.least + 2 ^ c.width := by
  induction classes with
  | nil => exact absurd hreach (by simp [reachTo])
  | cons c rest ih =>
    have hc : c.least ≤ n := hfirst c rfl
    cases rest with
    | nil =>
      have hend : limit ≤ c.least + 2 ^ c.width := by simpa [reachTo] using hreach
      refine ⟨c, ?_, hc, by omega⟩
      simp [classOf, hc]
    | cons next rest =>
      simp only [reachTo, Bool.and_eq_true, decide_eq_true_eq] at hreach
      by_cases hnext : next.least ≤ n
      · obtain ⟨found, hfound, hleast, hlt⟩ := ih hreach.2 fun d hd => by
          rw [List.head?_cons, Option.mem_def, Option.some.injEq] at hd
          exact hd ▸ hnext
        refine ⟨found, ?_, hleast, hlt⟩
        have hindex : classOf (c :: next :: rest) n = classOf (next :: rest) n + 1 := by
          simp [classOf, hc, hnext]
        rw [hindex, List.getElem?_cons_succ, hfound]
      · refine ⟨c, ?_, hc, by omega⟩
        simp [classOf, hc, hnext]

theorem length_class {n : Nat} (h : Token.leastLength ≤ n ∧ n ≤ Token.greatestLength) :
    ∃ c, lengthClasses[classOf lengthClasses n]? = some c ∧ c.least ≤ n ∧
      n < c.least + 2 ^ c.width := by
  have hreach : reachTo (Token.greatestLength + 1) lengthClasses = true := by decide
  refine classOf_spec hreach (Nat.lt_succ_of_le h.2) ?_
  intro c hc
  cases hc
  exact h.1

theorem distance_class {n : Nat} (h : 0 < n ∧ n ≤ Token.greatestDistance) :
    ∃ c, distanceClasses[classOf distanceClasses n]? = some c ∧ c.least ≤ n ∧
      n < c.least + 2 ^ c.width := by
  have hreach : reachTo (Token.greatestDistance + 1) distanceClasses = true := by decide
  refine classOf_spec hreach (Nat.lt_succ_of_le h.2) ?_
  intro c hc
  cases hc
  exact h.1

/-! ## The fixed codes -/

namespace HuffmanCode

/-- A code that is found is found in front of any further bits. -/
theorem search_append {symbols : Array Nat} {counts : List Nat} {code first index : Nat}
    {bits more rest : List Bool} {s : Nat}
    (h : search symbols counts code first index bits = some (s, more)) :
    search symbols counts code first index (bits ++ rest) = some (s, more ++ rest) := by
  induction bits generalizing counts code first index with
  | nil => cases counts <;> simp [search] at h
  | cons b bits ih =>
    cases counts with
    | nil => simp [search] at h
    | cons count counts =>
      rw [List.cons_append]
      unfold search at h ⊢
      dsimp only at h ⊢
      split
      · rename_i hlt
        rw [if_pos hlt] at h
        obtain ⟨x, hx, hpair⟩ := Option.map_eq_some_iff.mp h
        cases hpair
        rw [hx]
        rfl
      · rename_i hlt
        rw [if_neg hlt] at h
        exact ih h

theorem symbol?_append {c : HuffmanCode} {bits : List Bool} {s : Nat}
    (h : c.symbol? bits = some (s, [])) (rest : List Bool) :
    c.symbol? (bits ++ rest) = some (s, rest) := search_append h

/-- Where one length stands, in a list that starts with a run of equal lengths. -/
theorem places_replicate (length count other start : Nat) (rest : List Nat) :
    (((List.replicate count other ++ rest).zipIdx start).filter
        fun (l, _) => l = length).map (·.2) =
      (if other = length then List.range' start count else []) ++
        ((rest.zipIdx (start + count)).filter fun (l, _) => l = length).map (·.2) := by
  induction count generalizing start with
  | zero => simp
  | succ count ih =>
    rw [List.replicate_succ, List.cons_append, List.zipIdx_cons]
    have hstep : start + 1 + count = start + (count + 1) := by omega
    by_cases h : other = length
    · rw [List.filter_cons_of_pos (by simpa using h), List.map_cons, ih, if_pos h, if_pos h,
        List.range'_succ, hstep]
      rfl
    · rw [List.filter_cons_of_neg (by simpa using h), ih, if_neg h, if_neg h, hstep]

/-- The fixed code for literals, the end and lengths. -/
def fixed : HuffmanCode :=
  ⟨[0, 0, 0, 0, 0, 0, 24, 152, 112, 0, 0, 0, 0, 0, 0],
    (List.range' 256 24 ++ (List.range' 0 144 ++ List.range' 280 8) ++ List.range' 144 112).toArray⟩

theorem ofLengths?_fixed : ofLengths? fixedLengths = some fixed := by
  have hplaces (length : Nat) :
      (fixedLengths.zipIdx.filter fun (l, _) => l = length).map (·.2) =
        (if 8 = length then List.range' 0 144 else []) ++
          ((if 9 = length then List.range' 144 112 else []) ++
            ((if 7 = length then List.range' 256 24 else []) ++
              (if 8 = length then List.range' 280 8 else []))) := by
    have hsplit : fixedLengths = List.replicate 144 8 ++ (List.replicate 112 9 ++
        (List.replicate 24 7 ++ (List.replicate 8 8 ++ []))) := by
      simp only [fixedLengths, List.append_assoc, List.append_nil]
    rw [hsplit, places_replicate, places_replicate, places_replicate, places_replicate]
    simp only [List.zipIdx_nil, List.filter_nil, List.map_nil, List.append_nil, Nat.zero_add,
      Nat.reduceAdd]
  have hgroups : (List.range longestCode).map (fun i =>
      (fixedLengths.zipIdx.filter fun (l, _) => l = i + 1).map (·.2)) =
        [[], [], [], [], [], [], List.range' 256 24, List.range' 0 144 ++ List.range' 280 8,
          List.range' 144 112, [], [], [], [], [], []] := by
    simp only [hplaces]
    rfl
  simp only [ofLengths?, hgroups]
  rw [if_pos (.inr (by simp [covered, longestCode]))]
  simp [fixed]

theorem symbol?_fixed : ∀ s < 288, fixed.symbol? (Deflate.symbolBits s) = some (s, []) := by
  decide +kernel

/-- The fixed code for distances. -/
def fixedDistances : HuffmanCode :=
  ⟨[0, 0, 0, 0, 32, 0, 0, 0, 0, 0, 0, 0, 0, 0, 0], (List.range' 0 32).toArray⟩

theorem ofLengths?_fixedDistances : ofLengths? fixedDistanceLengths = some fixedDistances := rfl

theorem symbol?_fixedDistances :
    ∀ d < 32, fixedDistances.symbol? (Deflate.codeBits 5 d) = some (d, []) := by
  decide

end HuffmanCode

namespace Deflate

open HuffmanCode (fixed fixedDistances)

/-! ## Tokens -/

theorem number?_furtherBits {classes : List NumberClass} {index n : Nat} {c : NumberClass}
    (hc : classes[index]? = some c) (hleast : c.least ≤ n) (hlt : n < c.least + 2 ^ c.width)
    (rest : List Bool) :
    number? classes index (furtherBits classes index n ++ rest) = some (n, rest) := by
  have htake : Bits.take? c.width (Bits.ofNat c.width (n - c.least) ++ rest) =
      some (n - c.least, rest) := Bits.take?_ofNat (by omega) rest
  simp only [number?, furtherBits, hc, Option.bind_eq_bind, Option.bind_some, htake,
    Option.pure_def]
  congr 2
  omega

/-- A token is read as it was written. -/
theorem token?_tokenBits {t : Token} (h : t.Fits) (rest : List Bool) :
    token? fixed fixedDistances (tokenBits t ++ rest) = some (some t, rest) := by
  cases t with
  | literal b =>
    have hb := b.toNat_lt
    have hsymbol := HuffmanCode.symbol?_append
      (HuffmanCode.symbol?_fixed b.toNat (by omega)) rest
    have hlt : b.toNat < endSymbol := hb
    simp [token?, tokenBits, hsymbol, hlt]
  | copy length distance =>
    obtain ⟨hlength, hdistance⟩ := h
    obtain ⟨l, hl, hlleast, hllt⟩ := length_class hlength
    obtain ⟨d, hd, hdleast, hdlt⟩ := distance_class hdistance
    have hlindex : classOf lengthClasses length < 29 := (List.getElem?_eq_some_iff.mp hl).1
    have hdindex : classOf distanceClasses distance < 30 := (List.getElem?_eq_some_iff.mp hd).1
    have hsplit : tokenBits (.copy length distance) ++ rest =
        symbolBits (firstLengthSymbol + classOf lengthClasses length) ++
          (furtherBits lengthClasses (classOf lengthClasses length) length ++
            (codeBits 5 (classOf distanceClasses distance) ++
              (furtherBits distanceClasses (classOf distanceClasses distance) distance ++
                rest))) := by
      simp only [tokenBits, List.append_assoc]
    have hsymbol := HuffmanCode.symbol?_append (HuffmanCode.symbol?_fixed
      (firstLengthSymbol + classOf lengthClasses length) (by rw [firstLengthSymbol]; omega))
    have hdistance := HuffmanCode.symbol?_append (HuffmanCode.symbol?_fixedDistances
      (classOf distanceClasses distance) (by omega))
    have hlow : ¬ firstLengthSymbol + classOf lengthClasses length < endSymbol := by
      rw [firstLengthSymbol, endSymbol]
      omega
    have hend : ¬ firstLengthSymbol + classOf lengthClasses length = endSymbol := by
      rw [firstLengthSymbol, endSymbol]
      omega
    rw [hsplit]
    simp only [token?, hsymbol, Option.bind_eq_bind, Option.bind_some, hlow, hend, if_false,
      Nat.add_sub_cancel_left, number?_furtherBits hl hlleast hllt, hdistance,
      number?_furtherBits hd hdleast hdlt, Option.pure_def]

theorem token?_end (rest : List Bool) :
    token? fixed fixedDistances (symbolBits endSymbol ++ rest) = some (none, rest) := by
  have hsymbol := HuffmanCode.symbol?_append (HuffmanCode.symbol?_fixed endSymbol (by decide)) rest
  simp [token?, hsymbol]

theorem length_tokenBits (t : Token) : 0 < (tokenBits t).length := by
  have hsymbol (s : Nat) : 0 < (symbolBits s).length := by
    simp only [symbolBits, codeBits]
    repeat' split
    all_goals simp [Bits.length_ofNat]
  cases t with
  | literal b => exact hsymbol _
  | copy length distance =>
    have := hsymbol (firstLengthSymbol + classOf lengthClasses length)
    simp only [tokenBits, List.length_append]
    omega

/-- The tokens of a block are read up to its end, each adding what it stands for. -/
theorem tokens?_tokenBits {fuel : Nat} {tokens : List Token} {out result : Array UInt8}
    {rest : List Bool} (hfuel : tokens.length < fuel) (hfits : ∀ t ∈ tokens, t.Fits)
    (hexpand : Token.expandAll out tokens = some result) :
    tokens? fixed fixedDistances fuel
      ⟨out, tokens.flatMap tokenBits ++ (symbolBits endSymbol ++ rest)⟩ = some ⟨result, rest⟩ := by
  induction tokens generalizing fuel out with
  | nil =>
    obtain ⟨fuel, rfl⟩ := Nat.exists_eq_succ_of_ne_zero (Nat.pos_iff_ne_zero.mp hfuel)
    cases hexpand
    simp [tokens?, token?_end]
  | cons t tokens ih =>
    obtain ⟨fuel, rfl⟩ := Nat.exists_eq_succ_of_ne_zero (Nat.ne_of_gt (Nat.zero_lt_of_lt hfuel))
    rw [Token.expandAll] at hexpand
    obtain ⟨out', hout', hexpand⟩ := Option.bind_eq_some_iff.mp hexpand
    have hnext := ih (Nat.lt_of_succ_lt_succ hfuel) (fun x hx => hfits x (by simp [hx])) hexpand
    rw [List.flatMap_cons, List.append_assoc]
    simp only [tokens?, token?_tokenBits (hfits t (by simp)), Option.bind_eq_bind,
      Option.bind_some, hout', hnext]

/-! ## The block -/

theorem length_le_flatMap_tokenBits (tokens : List Token) :
    tokens.length ≤ (tokens.flatMap tokenBits).length := by
  induction tokens with
  | nil => exact Nat.le_refl 0
  | cons t tokens ih =>
    have := length_tokenBits t
    rw [List.flatMap_cons, List.length_append, List.length_cons]
    omega

/-- The block of some bytes is read as these bytes, and no bit behind it is touched. -/
theorem expand?_blockBits (bytes : Array UInt8) (rest : List Bool) :
    expand? (blockBits (Token.find bytes) ++ rest) = some ⟨bytes, rest⟩ := by
  have hstands := Token.standsFor_find bytes
  have hexpands : Token.expandAll #[] (Token.find bytes) = some bytes := by
    rw [hstands.expands, Array.extract_size]
  have hlast (bits : List Bool) : Bits.take? 1 (true :: bits) = some (1, bits) := rfl
  have hkind (bits : List Bool) : Bits.take? 2 (true :: false :: bits) = some (1, bits) := rfl
  let bits := (Token.find bytes).flatMap tokenBits ++ (symbolBits endSymbol ++ rest)
  have hsplit : blockBits (Token.find bytes) ++ rest = true :: true :: false :: bits := by
    simp [blockBits, bits]
  have hfuel : (Token.find bytes).length < bits.length + 1 := by
    have := length_le_flatMap_tokenBits (Token.find bytes)
    rw [List.length_append]
    omega
  have htokens : tokens? fixed fixedDistances (bits.length + 1) ⟨#[], bits⟩ = some ⟨bytes, rest⟩ :=
    tokens?_tokenBits hfuel hstands.fits hexpands
  rw [expand?, hsplit]
  simp only [blocks?, hlast, hkind, blockCodes?, HuffmanCode.ofLengths?_fixed,
    HuffmanCode.ofLengths?_fixedDistances, htokens, Option.bind_eq_bind, Option.bind_some,
    Option.pure_def, if_true, Nat.one_ne_zero, if_false]

/-- Compressed bytes are read back, with less than a byte of zeros behind them. -/
theorem expand?_compress (bytes : List UInt8) :
    ∃ k < 8, ∀ rest, expand? (Bits.ofBytes (Deflate.compress bytes) ++ rest) =
      some ⟨bytes.toArray, List.replicate k false ++ rest⟩ := by
  obtain ⟨k, hk, -, hbits⟩ := Bits.ofBytes_toBytes (blockBits (Token.find bytes.toArray))
  refine ⟨k, hk, fun rest => ?_⟩
  rw [Deflate.compress, hbits, List.append_assoc, expand?_blockBits]

end Deflate

end DiagramPress.Codec
