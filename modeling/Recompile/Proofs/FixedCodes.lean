import Recompile.Archive.Deflate.Portions
import Recompile.Archive.Deflate.Writing

/-!
# Fixed codes

A short input is deflated into one block with the fixed codes, and such a block is read back without any tables in front of
it. The lengths of the fixed codes come in four runs. A run is counted at once, and along it the codes are consecutive
numbers, so that the codes and the decoder are known without going through the lengths one by one
(`Deflate.canonicalCodes_fixedLiterals`, `Deflate.decoder_fixedLiterals`).

To deflate a short input without repetitions is then to write the codes of its bytes next to each other, and to inflate a
stream of one block is to read the symbols of the block.
-/

namespace Recompile

namespace Deflate

/-! ### Runs of lengths -/

theorem modify_add_zero (xs : Array Nat) (i : Nat) : xs.modify i (· + 0) = xs := by
  apply Array.toList_inj.1
  rw [Array.toList_modify]
  exact List.modify_id i xs.toList

theorem modify_add_add (xs : Array Nat) (i a b : Nat) :
    (xs.modify i (· + a)).modify i (· + b) = xs.modify i (· + (a + b)) := by
  apply Array.toList_inj.1
  rw [Array.toList_modify, Array.toList_modify, Array.toList_modify, List.modify_modify_eq]
  congr 1
  funext x
  exact Nat.add_assoc x a b

/-- A run of a length is counted at once. -/
theorem foldl_count_replicate (counts : Array Nat) {n : Nat} (hn : n ≠ 0) (k : Nat) :
    (List.replicate k n).foldl (fun counts n => if n = 0 then counts else counts.modify n (· + 1)) counts =
      counts.modify n (· + k) := by
  induction k generalizing counts with
  | zero => exact (modify_add_zero counts n).symm
  | succ k ih => rw [List.replicate_succ, List.foldl_cons, if_neg hn, ih, modify_add_add, Nat.add_comm 1]

/-- Along a run of a length the codes are consecutive. -/
theorem foldl_code_replicate (codes next : Array Nat) {n : Nat} (hn : n ≠ 0) (hsize : n < next.size) (k : Nat) :
    (List.replicate k n).foldl (fun (acc : Array Nat × Array Nat) n =>
      if n = 0 then (acc.1.push 0, acc.2) else (acc.1.push (acc.2.getD n 0), acc.2.modify n (· + 1))) (codes, next) =
      (codes ++ (List.range' (next.getD n 0) k).toArray, next.modify n (· + k)) := by
  induction k generalizing codes next with
  | zero =>
    rw [modify_add_zero]
    simp
  | succ k ih =>
    -- each code of the length is one above the one before
    have hnext : (next.modify n (· + 1)).getD n 0 = next.getD n 0 + 1 := by
      simp [Array.getD, hsize, Array.getElem_modify]
    rw [List.replicate_succ, List.foldl_cons, if_neg hn, ih _ _ (by simpa using hsize), modify_add_add, Nat.add_comm 1, hnext,
      List.range'_succ]
    refine congrArg (·, _) (Array.toList_inj.1 ?_)
    simp only [Array.toList_append, Array.toList_push, List.append_assoc, List.singleton_append]

/-! ### The fixed codes -/

/-- The lengths of the fixed codes, run by run. -/
def fixedLengths : List Nat := List.replicate 144 8 ++ List.replicate 112 9 ++ List.replicate 24 7 ++ List.replicate 8 8

theorem fixedLiterals_eq : fixedLiterals = fixedLengths.toArray := by
  apply Array.toList_inj.1
  unfold fixedLiterals fixedLengths
  simp only [Array.toList_append, Array.toList_replicate]

/-- How many of the fixed codes have each length. -/
def fixedCounts : Array Nat := #[0, 0, 0, 0, 0, 0, 0, 24, 152, 112, 0, 0, 0, 0, 0, 0]

theorem lengthCounts_fixedLiterals : lengthCounts fixedLiterals = fixedCounts := by
  rw [fixedLiterals_eq, lengthCounts, List.foldl_toArray]
  unfold fixedLengths
  rw [List.foldl_append, List.foldl_append, List.foldl_append,
    foldl_count_replicate _ (by decide), foldl_count_replicate _ (by decide), foldl_count_replicate _ (by decide),
    foldl_count_replicate _ (by decide)]
  decide

/-- The codes of seven bits begin with 0, those of eight with 48 and those of nine with 400. -/
theorem firstCodes_fixedCounts : firstCodes fixedCounts =
    #[0, 0, 0, 0, 0, 0, 0, 0, 48, 400, 1024, 2048, 4096, 8192, 16384, 32768] := by decide

/-- The fixed codes, run by run. -/
def fixedCodes : List Nat := List.range' 48 144 ++ List.range' 400 112 ++ List.range' 0 24 ++ List.range' 192 8

/-- **The fixed codes** as they are written. -/
theorem canonicalCodes_fixedLiterals : canonicalCodes fixedLiterals = fixedCodes.toArray := by
  rw [canonicalCodes, lengthCounts_fixedLiterals, firstCodes_fixedCounts, fixedLiterals_eq, List.foldl_toArray]
  unfold fixedLengths fixedCodes
  rw [List.foldl_append, List.foldl_append, List.foldl_append]
  simp (disch := simp) only [foldl_code_replicate]
  rw [Array.empty_append]
  simp only [List.append_toArray]
  rfl

/-- The decoder of a code that leaves no sequence of bits out. -/
theorem decoder_of_fullWeight {mayLack : Bool} {lengths counts : Array Nat} {symbols : List Nat}
    (hcounts : lengthCounts lengths = counts)
    (hweight : (List.range 16).foldl (fun sum n => sum + counts.getD n 0 <<< (16 - n)) 0 = fullWeight)
    (hsymbols : ((List.range 16).flatMap fun n =>
      if n = 0 then [] else (lengths.toList.zipIdx.filter fun e => e.1 = n).map (·.2)) = symbols) :
    decoder mayLack lengths = pure ⟨counts, symbols.toArray, fullWeight⟩ := by
  have hlengths : Decoder.ofLengths? mayLack lengths = some ⟨counts, symbols.toArray, fullWeight⟩ := by
    unfold Decoder.ofLengths?
    rw [hcounts]
    dsimp only
    rw [hweight, if_pos (Or.inl rfl), hsymbols]
  rw [decoder, hlengths]

/-- The fixed codes as they are read. The symbols are in the order of their codes, shorter codes first. -/
def fixedDecoder : Decoder :=
  ⟨fixedCounts, (List.range' 256 24 ++ List.range' 0 144 ++ List.range' 280 8 ++ List.range' 144 112).toArray, fullWeight⟩

/-- **The fixed codes** as they are read. -/
theorem decoder_fixedLiterals : decoder true fixedLiterals = pure fixedDecoder := by
  refine decoder_of_fullWeight lengthCounts_fixedLiterals (by decide) ?_
  rw [fixedLiterals_eq]
  decide +kernel

/-- The fixed codes of the distances, which all have five bits. -/
def distanceDecoder : Decoder :=
  ⟨#[0, 0, 0, 0, 0, 32, 0, 0, 0, 0, 0, 0, 0, 0, 0, 0], (List.range 32).toArray, fullWeight⟩

theorem decoder_fixedDistances : decoder true fixedDistances = pure distanceDecoder :=
  decoder_of_fullWeight (by decide +kernel) (by decide) (by decide)

/-! ### Short inputs -/

/-- A short input that is cut into one block is written with the fixed codes. -/
theorem deflate_of_single {x : ByteArray} {block : Array Token} (hsize : x.size ≤ 32)
    (hblock : splitBlocks (tokens x) = (#[], block)) :
    deflate x = (putFixed (BitString.put {} 1 1) block.toList).pad.whole := by
  have hlength : (x.extract 0 x.size).data.toList.length ≤ 32 := by simpa using hsize
  unfold deflate
  rw [hblock]
  simp only [List.foldl_toArray', List.foldl_nil]
  unfold putBlock
  rw [if_neg (by omega), if_pos (by omega), if_pos rfl]

/-- **A short input without repetitions** is deflated byte by byte. -/
theorem deflate_of_literals (bytes : Bytes) (hsize : List.length bytes ≤ 32)
    (hblock : splitBlocks (tokens ⟨bytes.toArray⟩) = (#[], (bytes.map Token.literal).toArray)) :
    deflate ⟨bytes.toArray⟩ =
      (putSymbol (bytes.foldl (fun s b => putSymbol s fixedLengths.toArray fixedCodes.toArray b.toNat)
        ((BitString.put {} 1 1).put 1 2)) fixedLengths.toArray fixedCodes.toArray endOfBlock).pad.whole := by
  rw [deflate_of_single (x := ⟨bytes.toArray⟩) hsize hblock]
  unfold putFixed putTokens
  rw [canonicalCodes_fixedLiterals, fixedLiterals_eq]
  dsimp only
  rw [List.foldl_map]

/-- Nothing is deflated into the end of a block. -/
theorem deflate_nil : (deflate ⟨#[]⟩).data.toList = [3, 0] := by
  rw [deflate_of_literals [] (by decide) rfl]
  decide +kernel

/-- **A stream of one block with the fixed codes** is read as its symbols. -/
theorem unpack_of_coded {input : ByteArray} {first second : Reading}
    (hfinal : (bit input).run.run {} = pure (.ok 1, first)) (hkind : (bits input 2).run.run first = pure (.ok 1, second))
    (hcoded : ((coded input fixedDecoder distanceDecoder (8 * input.size + 1)).run.run second).run.1.toBool = true) :
    unpack input =
      (((coded input fixedDecoder distanceDecoder (8 * input.size + 1)).run.run second).run.2.output.data.toList, none) := by
  generalize hlast : ((coded input fixedDecoder distanceDecoder (8 * input.size + 1)).run.run second).run.2 = last
  have hrun : (coded input fixedDecoder distanceDecoder (8 * input.size + 1)).run.run second = pure (.ok (), last) := by
    refine Prod.ext ?_ hlast
    cases hresult : ((coded input fixedDecoder distanceDecoder (8 * input.size + 1)).run.run second).run.1 with
    | ok _ => exact hresult
    | error stop =>
      rw [hresult] at hcoded
      cases hcoded
  -- the first block is the final one, so the loop over the blocks ends behind it
  have hblocks : (blocks input (8 * input.size + 1) (8 * input.size + 1)).run.run {} = pure (.ok (), last) := by
    rw [blocks, decoder_fixedLiterals, decoder_fixedDistances]
    simp only [ExceptT.run_bind, StateT.run_bind, hfinal, hkind, hrun, pure_bind]
    rfl
  have hreading : reading input = (last, none) := by
    unfold reading
    dsimp only
    rw [hblocks]
    rfl
  unfold unpack
  rw [hreading]

end Deflate

end Recompile
