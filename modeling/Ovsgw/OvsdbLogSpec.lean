/-
  **A log file that was cut off is read back up to the cut.**

  The file is the records one after the other.  A record that is whole is read as the value that was
  written; of a record that is not, either the header has no end of line, and no header without one
  is accepted, or the body is shorter than the header says.
-/
import Ovsgw.JsonTextSpec
import Ovsgw.OvsdbLog

namespace Ovsgw

open List

/-! ## 1. Headers -/

/-- A magic that `ovsdb_log_open` accepts for a new file and that leaves room
    for the rest of the header in its buffer. -/
structure MagicOk (magic : List Char) : Prop where
  nul : nul ∉ magic
  blank : ' ' ∉ magic
  newline : '\n' ∉ magic
  bar : '|' ∉ magic
  short : magic.length ≤ 58

variable {offset : Nat} {name : String}

theorem sha1FromHex_sha1Hex {sha1 : Sha1} {rest : List Char} :
    sha1FromHex (sha1Hex sha1 ++ rest) = some sha1 := by
  have hlt : sha1.toNat < 16 ^ 40 := sha1.isLt
  rw [sha1FromHex, sha1Hex, hexitsValue_hexits rest hlt, Option.map_some, BitVec.ofNat_toNat,
    BitVec.setWidth_eq]

variable {magic line data : List Char}

theorem bne_of_not_mem {x : Char} (h : x ∉ line) : ∀ c ∈ line, (c != x) = true := by
  intro c hc
  rw [bne_iff_ne]
  rintro rfl
  exact h hc

theorem parseHeader_composeHeader (lib : LogLib) (hm : MagicOk magic)
    (hne : data ≠ []) (hlen : data.length < ullongMax) :
    parseHeader (composeHeader lib magic data) =
      (some ⟨magic, data.length, lib.sha1 data⟩, headerLead ++ magic) := by
  have hmagic := bne_of_not_mem hm.blank
  have hpos : data.length ≠ 0 := by simpa using hne
  have hparse : parseLengthAndHash magic (Nat.toDigits 10 data.length ++
      (' ' :: (sha1Hex (lib.sha1 data) ++ ['\n']))) =
      some ⟨magic, data.length, lib.sha1 data⟩ := by
    have hrest : (sha1Hex (lib.sha1 data) ++ ['\n']).drop 40 = ['\n'] :=
      drop_left' (length_hexits 40 _)
    have hnumber (s : List Char) : strtoul (Nat.toDigits 10 data.length ++ ' ' :: s) =
        (data.length, ' ' :: s) := strtoul_toDigits hlen.le rfl
    simp [parseLengthAndHash, hnumber, hpos, hlen.ne, sha1FromHex_sha1Hex, hrest]
  have hprefix : headerLead.isPrefixOf (composeHeader lib magic data) = true :=
    isPrefixOf_iff_prefix.mpr (prefix_append _ _)
  have hdrop : (composeHeader lib magic data).drop headerLead.length = magic ++
      (' ' :: (Nat.toDigits 10 data.length ++ (' ' :: (sha1Hex (lib.sha1 data) ++ ['\n'])))) :=
    drop_left
  simp only [parseHeader, hdrop, hprefix, takeWhile_append_of_pos hmagic,
    dropWhile_append_of_pos hmagic]
  simp [hparse]

variable {h : Header} {d : Doubles}

theorem newline_mem_of_parseLengthAndHash {s : List Char}
    (hparse : parseLengthAndHash magic s = some h) : '\n' ∈ s := by
  have hsuffix := strtoul_suffix s
  rw [parseLengthAndHash] at hparse
  generalize strtoul s = r at hparse hsuffix
  obtain ⟨length, p⟩ := r
  dsimp only at hparse hsuffix
  split at hparse
  · cases hparse
  · split at hparse
    · cases hparse
    · split at hparse
      next hhead =>
        have hmem := mem_of_mem_tail (mem_of_mem_drop (mem_of_head? hhead))
        exact hsuffix.mem hmem
      · cases hparse

theorem newline_mem_of_parseHeader (hparse : (parseHeader line).1 = some h) : '\n' ∈ line := by
  simp only [parseHeader] at hparse
  split at hparse
  · cases hparse
  · have hmem := mem_of_mem_tail (newline_mem_of_parseLengthAndHash hparse)
    exact mem_of_mem_drop ((dropWhile_suffix _).mem hmem)

/-! ## 2. Lines -/

theorem composeHeader_line {lib : LogLib} (hm : MagicOk magic) (hlen : data.length < ullongMax) :
    ∃ line, composeHeader lib magic data = line ++ ['\n'] ∧ '\n' ∉ line ∧ nul ∉ line ∧
      line.length + 1 < headerSize := by
  have hnot (c : Char) (hmagic : c ∉ magic) (hlow : c.toNat < 0x20) : c ∉ headerLead ++ (magic ++
      (' ' :: (Nat.toDigits 10 data.length ++ (' ' :: sha1Hex (lib.sha1 data))))) := by
    intro hmem
    simp only [mem_append, mem_cons] at hmem
    rcases hmem with h | h | rfl | h | rfl | h
    · exact absurd (all_eq_true.mp (by decide : headerLead.all (0x20 ≤ ·.toNat)) c h)
        (by simpa using hlow)
    · exact hmagic h
    · exact absurd hlow (by decide)
    · exact absurd (isDigit_toDigits h) (by simp [Char.isDigit, UInt32.le_iff_toNat_le]; omega)
    · exact absurd hlow (by decide)
    · exact absurd (ordinary_hexits h).printable (Nat.not_le.mpr hlow)
  refine ⟨_, by simp [composeHeader], hnot '\n' hm.newline (by decide),
    hnot nul hm.nul (by decide), ?_⟩
  · have hdigits : (Nat.toDigits 10 data.length).length ≤ 20 :=
      (Nat.length_toDigits_le_iff (by decide) (by decide)).mpr (hlen.trans (by decide))
    have hlead : headerLead.length = 6 := rfl
    have hsize : headerSize = 128 := rfl
    have hmagic := hm.short
    simp only [length_append, length_cons, sha1Hex, length_hexits]
    omega

/-- `fgets` returns a line with its new-line when both fit. -/
theorem fgets_line {rest : List Char} (hline : '\n' ∉ line) (hlen : line.length + 1 < headerSize) :
    fgets headerSize (line ++ '\n' :: rest) = some (line ++ ['\n']) := by
  have hchunk : ((line ++ '\n' :: rest).take (headerSize - 1)) =
      line ++ '\n' :: rest.take (headerSize - 1 - line.length - 1) := by
    rw [take_append, take_of_length_le (by omega), take_cons (by omega)]
  have htake : (line ++ '\n' :: rest.take (headerSize - 1 - line.length - 1)).takeWhile
      (· != '\n') = line := by
    rw [takeWhile_append_of_pos (bne_of_not_mem hline)]
    simp
  simp only [fgets, hchunk, htake]
  rw [if_neg (by simp), take_append, take_of_length_le (by omega)]
  simp

/-- `fgets` returns all that is left when there is no new-line in it. -/
theorem fgets_rest (hne : line ≠ []) (hline : '\n' ∉ line)
    (hlen : line.length < headerSize) : fgets headerSize line = some line := by
  have hchunk : line.take (headerSize - 1) = line := take_of_length_le (by omega)
  have htake : line.takeWhile (· != '\n') = line :=
    takeWhile_eq_self_iff.mpr (bne_of_not_mem hline)
  simp only [fgets, hchunk, htake]
  rw [if_neg hne, take_of_length_le (by omega)]

/-! ## 3. Bodies -/

theorem feed_done {p : JsonParser} (h : p.done = true) (text : List Char) :
    jsonParserFeed d p text = (p, text) := by
  cases text with
  | nil => rfl
  | cons c cs => rw [jsonParserFeed, if_pos h]

theorem feed_append (d : Doubles) (p : JsonParser) (s t : List Char) :
    (jsonParserFeed d p (s ++ t)).1 = (jsonParserFeed d (jsonParserFeed d p s).1 t).1 := by
  induction s generalizing p with
  | nil => rfl
  | cons c s ih =>
    by_cases hdone : p.done = true
    · rw [feed_done hdone, feed_done hdone, feed_done hdone]
    · rw [cons_append, jsonParserFeed, jsonParserFeed, if_neg hdone, if_neg hdone]
      split
      · exact ih _
      next p' _ =>
        by_cases hdone' : p'.done = true
        · rw [if_pos hdone', if_pos hdone', feed_done hdone']
        · rw [if_neg hdone', if_neg hdone']
          exact ih _

/-- The loop of `parse_body` reads a body that is there in full. -/
theorem parseBodyLoop_whole (d : Doubles) (body rest data : List Char) (parser : JsonParser) :
    parseBodyLoop d body.length (body ++ rest) data parser =
      .ok (data ++ body, (jsonParserFeed d parser body).1) := by
  induction hn : body.length using Nat.strongRecOn generalizing body data parser with
  | ind n ih =>
    have hbufsiz : 0 < bufsiz := by decide
    rw [parseBodyLoop]
    by_cases hzero : n = 0
    · rw [if_pos hzero, length_eq_zero_iff.mp (hn.trans hzero), append_nil]
      rfl
    · have hle : min n bufsiz ≤ body.length := by omega
      have htake : (body ++ rest).take (min n bufsiz) = body.take (min n bufsiz) :=
        take_append_of_le_length hle
      have hdrop : (body ++ rest).drop (min n bufsiz) = body.drop (min n bufsiz) ++ rest :=
        drop_append_of_le_length hle
      have hlen : (body.take (min n bufsiz)).length = min n bufsiz :=
        length_take_of_le hle
      have hrest := ih (n - min n bufsiz) (by omega) (body.drop (min n bufsiz))
        (data ++ body.take (min n bufsiz)) (jsonParserFeed d parser (body.take (min n bufsiz))).1
        (by rw [length_drop, hn])
      dsimp only
      rw [if_neg hzero, htake, hdrop, hlen, if_neg (fun h => h rfl), hrest, ← feed_append,
        append_assoc, take_append_drop]

/-- The loop of `parse_body` fails on a body that is cut off. -/
theorem parseBodyLoop_short {length : Nat} {stream : List Char}
    {parser : JsonParser} (h : stream.length < length) :
    ∃ left, parseBodyLoop d length stream data parser = .error left := by
  induction length using Nat.strongRecOn generalizing stream data parser with
  | ind length ih =>
    have hbufsiz : 0 < bufsiz := by decide
    rw [parseBodyLoop, if_neg (by omega)]
    dsimp only
    split
    · exact ⟨length, rfl⟩
    next hchunk =>
      rw [Decidable.not_not, length_take] at hchunk
      apply ih _ (by omega)
      rw [length_drop]
      omega

/-- A value whose record can be read back.  A string in memory is always shorter
    than `ULONG_MAX`. -/
structure Recordable (lib : LogLib) (j : Json) : Prop where
  container : j.IsContainer
  plain : j.Plain
  nesting : j.nesting ≤ jsonMaxHeight
  length : (composeData lib j).length < ullongMax

variable {lib : LogLib} {log : OvsdbLog} {j : Json} {n : Nat}

theorem parseBody_composeData (hj : Recordable lib j) {rest : List Char} :
    parseBody lib log offset (composeData lib j).length (composeData lib j ++ rest) =
      .ok (lib.sha1 (composeData lib j), some j) := by
  have hblank : ∀ c ∈ ['\n'], isBlank c = true := by
    intro c hc
    rw [mem_singleton.mp hc]
    decide
  have hfinish := jsonParserFinish_jsonToString lib.doubles {} hj.plain hj.container hj.nesting
    hblank
  rw [arrange_of_unsorted rfl] at hfinish
  rw [parseBody, parseBodyLoop_whole]
  exact congrArg (fun json => Except.ok (lib.sha1 (composeData lib j), json)) hfinish

/-! ## 4. Reading one record -/

def recordHeader (lib : LogLib) (magic : List Char) (j : Json) : Header :=
  ⟨magic, (composeData lib j).length, lib.sha1 (composeData lib j)⟩

theorem fgets_composeHeader (hm : MagicOk magic) (hj : Recordable lib j) (rest : List Char) :
    fgets headerSize (composeHeader lib magic (composeData lib j) ++ rest) =
        some (composeHeader lib magic (composeData lib j)) ∧
      cstr (composeHeader lib magic (composeData lib j)) =
        composeHeader lib magic (composeData lib j) ∧
      parseHeader (composeHeader lib magic (composeData lib j)) =
        (some (recordHeader lib magic j), headerLead ++ magic) := by
  have hne : composeData lib j ≠ [] := by simp [composeData]
  have hparse := parseHeader_composeHeader lib hm hne hj.length
  obtain ⟨line, hline, hnewline, hnul, hlen⟩ := composeHeader_line hm hj.length
  rw [hline] at hparse ⊢
  refine ⟨?_, ?_, hparse⟩
  · rw [append_assoc]
    exact fgets_line hnewline hlen
  · apply cstr_of_not_mem
    rw [mem_append, mem_singleton]
    rintro (h | h)
    · exact hnul h
    · exact absurd h (by decide)

/-- A header that is cut off has no new-line. -/
theorem composeHeader_cut (hm : MagicOk magic) (hj : Recordable lib j)
    (hn : n < (composeHeader lib magic (composeData lib j)).length) (rest : List Char) :
    '\n' ∉ (composeHeader lib magic (composeData lib j) ++ rest).take n ∧
      ((composeHeader lib magic (composeData lib j) ++ rest).take n).length < headerSize := by
  obtain ⟨line, hline, hnewline, -, hlen⟩ := composeHeader_line hm hj.length
  rw [hline, length_append, length_singleton] at hn
  rw [hline, append_assoc, take_append_of_le_length (by omega), length_take]
  exact ⟨fun h => hnewline (mem_of_mem_take h), by omega⟩

variable {rest : List Char} {js : List Json} {position : Nat}

theorem readBody_whole (hj : Recordable lib j)
    (hstream : log.file.drop position = composeData lib j ++ rest) :
    readBody lib log (recordHeader lib log.magic j) offset position =
      some (acceptBody log (recordHeader lib log.magic j) offset position
        (lib.sha1 (composeData lib j)) j) := by
  have hparse : parseBody lib log offset (recordHeader lib log.magic j).length
      (log.file.drop position) = .ok (lib.sha1 (composeData lib j), some j) := by
    rw [hstream]
    exact parseBody_composeData hj
  rw [readBody, hparse]

theorem readBody_short (hshort : (log.file.drop position).length < h.length) :
    ∃ error, readBody lib log h offset position = some (readFailed log error) := by
  obtain ⟨left, hloop⟩ := parseBodyLoop_short hshort
  rw [readBody, parseBody, hloop]
  exact ⟨_, rfl⟩

theorem acceptBody_object {members : List (String × Json)} :
    acceptBody log h offset position h.sha1 (.object members) =
      ({ log with
        prevOffset := log.offset
        offset := offset + h.length
        position := position + h.length }, .ok (some (.object members))) := by
  simp [acceptBody, checkBody]

theorem acceptBody_array {elems : List Json} {h : Header} (offset position : Nat) :
    ∃ error, acceptBody log h offset position h.sha1 (.array elems) = readFailed log error := by
  simp [acceptBody, checkBody]

theorem readRecord_cut (h : '\n' ∉ line) :
    ∃ error, readRecord lib log line = some (readFailed log error) := by
  rw [readRecord]
  split
  · exact ⟨_, rfl⟩
  next header parsed heq =>
    have hmem := newline_mem_of_parseHeader (congrArg Prod.fst heq)
    exact absurd (takeWhile_subset _ hmem) h

section

variable (hm : MagicOk log.magic) (hj : Recordable lib j) (hstate : log.state = .read)
include hm hj hstate

/-- `ovsdb_log_read` finds the body after the header of a record. -/
theorem ovsdbLogRead_header (hstream : log.file.drop log.position =
      composeHeader lib log.magic (composeData lib j) ++ rest) :
    ovsdbLogRead lib log = readBody lib log (recordHeader lib log.magic j)
      (log.offset + (composeHeader lib log.magic (composeData lib j)).length)
      (log.position + (composeHeader lib log.magic (composeData lib j)).length) := by
  obtain ⟨hfgets, hcstr, hparse⟩ := fgets_composeHeader hm hj rest
  rw [← hstream] at hfgets
  rw [ovsdbLogRead, hstate]
  dsimp only
  rw [hfgets]
  dsimp only
  rw [readRecord, hcstr, hparse]
  exact if_neg (fun h => h rfl)

variable (hstream : log.file.drop log.position = ovsdbLogComposeRecord lib j log.magic ++ rest)
include hstream

theorem ovsdbLogRead_record :
    ∃ offset position, log.file.drop position = composeData lib j ++ rest ∧
      ovsdbLogRead lib log = some (acceptBody log (recordHeader lib log.magic j) offset position
        (lib.sha1 (composeData lib j)) j) := by
  rw [ovsdbLogComposeRecord, append_assoc] at hstream
  have hbody : log.file.drop (log.position +
      (composeHeader lib log.magic (composeData lib j)).length) = composeData lib j ++ rest := by
    rw [← drop_drop, hstream, drop_left]
  have hread := ovsdbLogRead_header hm hj hstate hstream
  exact ⟨_, _, hbody, hread.trans (readBody_whole hj hbody)⟩

theorem ovsdbLogRead_object (hobject : ∃ members, j = .object members) :
    ∃ log', ovsdbLogRead lib log = some (log', .ok (some j)) ∧ log'.state = .read ∧
      log'.magic = log.magic ∧ log'.file.drop log'.position = rest := by
  obtain ⟨members, rfl⟩ := hobject
  obtain ⟨offset, position, hbody, hread⟩ := ovsdbLogRead_record hm hj hstate hstream
  refine ⟨_, hread.trans (congrArg some acceptBody_object), hstate, rfl, ?_⟩
  show log.file.drop (position + (composeData lib (.object members)).length) = rest
  rw [← drop_drop, hbody, drop_left]

theorem ovsdbLogRead_array (harray : ∃ elems, j = .array elems) :
    ∃ error, ovsdbLogRead lib log = some (readFailed log error) := by
  obtain ⟨elems, rfl⟩ := harray
  obtain ⟨offset, position, -, hread⟩ := ovsdbLogRead_record hm hj hstate hstream
  obtain ⟨error, haccept⟩ := @acceptBody_array log elems (recordHeader lib log.magic (.array elems))
    offset position
  exact ⟨error, hread.trans (congrArg some haccept)⟩

omit hstream in
theorem ovsdbLogRead_cut (hn : n < (ovsdbLogComposeRecord lib j log.magic).length)
    (hstream : log.file.drop log.position = (ovsdbLogComposeRecord lib j log.magic).take n) :
    ovsdbLogRead lib log = some (log, .ok none) ∨
      ∃ error, ovsdbLogRead lib log = some (readFailed log error) := by
  rw [ovsdbLogComposeRecord, length_append] at hn
  rw [ovsdbLogComposeRecord] at hstream
  rcases Nat.lt_or_ge n (composeHeader lib log.magic (composeData lib j)).length with hlt | hge
  · -- The cut is in the header: what is left of it has no new-line.
    obtain ⟨hnewline, hlen⟩ := composeHeader_cut hm hj hlt (composeData lib j)
    rw [← hstream] at hnewline hlen
    by_cases hempty : log.file.drop log.position = []
    · left
      rw [ovsdbLogRead, hstate, hempty]
      rfl
    · right
      rw [ovsdbLogRead, hstate]
      dsimp only
      rw [fgets_rest hempty hnewline hlen]
      exact readRecord_cut hnewline
  · -- The cut is in the body.
    right
    rw [take_append, take_of_length_le hge] at hstream
    rw [ovsdbLogRead_header hm hj hstate hstream]
    apply readBody_short
    rw [← drop_drop, hstream, drop_left, length_take]
    show _ < (composeData lib j).length
    omega

end

/-! ## 5. Reading the file -/

/-- A number of calls to `ovsdb_log_read`, one after the other. -/
def ovsdbLogReads (lib : LogLib) : Nat → OvsdbLog → Option (List (Except OvsdbError (Option Json)))
  | 0, _ => some []
  | k + 1, log => do
    let (log, result) ← ovsdbLogRead lib log
    let results ← ovsdbLogReads lib k log
    return result :: results

def logRecords (lib : LogLib) (magic : List Char) (js : List Json) : List Char :=
  js.flatMap (ovsdbLogComposeRecord lib · magic)

/-- How many records at the beginning of a file lie entirely in its first `n` bytes. -/
def wholeRecords (lib : LogLib) (magic : List Char) : List Json → Nat → Nat
  | [], _ => 0
  | j :: js, n =>
    let length := (ovsdbLogComposeRecord lib j magic).length
    if length ≤ n then wholeRecords lib magic js (n - length) + 1 else 0

/-- Whether a call to `ovsdb_log_read` returned no record: the end of the file or an error. -/
def NoRecord (result : Except OvsdbError (Option Json)) : Prop := ∀ j, result ≠ .ok (some j)

/-- No further call to `ovsdb_log_read` returns a record. -/
def Exhausted (lib : LogLib) (log : OvsdbLog) : Prop :=
  ∃ result, ovsdbLogRead lib log = some (log, result) ∧ NoRecord result

theorem Exhausted.reads (h : Exhausted lib log) (k : Nat) :
    ∃ results, ovsdbLogReads lib k log = some results ∧ ∀ r ∈ results, NoRecord r := by
  obtain ⟨result, hread, hnone⟩ := h
  induction k with
  | zero => exact ⟨[], rfl, forall_mem_nil _⟩
  | succ k ih =>
    obtain ⟨results, hreads, hall⟩ := ih
    refine ⟨result :: results, ?_, forall_mem_cons.mpr ⟨hnone, hall⟩⟩
    simp [ovsdbLogReads, hread, hreads]

theorem noRecord_error {error : OvsdbError} : NoRecord (.error error) := by
  intro j h
  cases h

theorem noRecord_none : NoRecord (.ok none) := by
  intro j h
  cases h

theorem exhausted_readFailed (error : OvsdbError) : Exhausted lib (readFailed log error).1 :=
  ⟨.error error, rfl, noRecord_error⟩

theorem exhausted_of_end (hstate : log.state = .read) (hend : log.file.drop log.position = []) :
    Exhausted lib log := by
  refine ⟨.ok none, ?_, noRecord_none⟩
  rw [ovsdbLogRead, hstate, hend]
  rfl

theorem ovsdbLogReads_take (hm : MagicOk log.magic)
    (hjs : ∀ j ∈ js, Recordable lib j ∧ ∃ members, j = .object members) (hstate : log.state = .read)
    (hstream : log.file.drop log.position = (logRecords lib log.magic js).take n) (k : Nat) :
    ∃ rest, ovsdbLogReads lib k log =
        some (((js.take (wholeRecords lib log.magic js n)).map (.ok <| some ·)).take k ++ rest) ∧
      ∀ r ∈ rest, NoRecord r := by
  induction js generalizing log n k with
  | nil =>
    rw [logRecords, flatMap_nil, take_nil] at hstream
    obtain ⟨results, hreads, hall⟩ := (exhausted_of_end hstate hstream).reads k
    exact ⟨results, by simpa using hreads, hall⟩
  | cons j js ih =>
    obtain ⟨hj, hobject⟩ := hjs j mem_cons_self
    rw [logRecords, flatMap_cons, take_append] at hstream
    cases k with
    | zero => exact ⟨[], by simp [ovsdbLogReads], forall_mem_nil _⟩
    | succ k =>
      by_cases hwhole : (ovsdbLogComposeRecord lib j log.magic).length ≤ n
      · rw [take_of_length_le hwhole] at hstream
        obtain ⟨log', hread, hstate', hmagic, hrest⟩ :=
          ovsdbLogRead_object hm hj hstate hstream hobject
        rw [← hmagic] at hm hrest
        obtain ⟨rest, hreads, hall⟩ :=
          ih hm (fun x hx => hjs x (mem_cons_of_mem _ hx)) hstate' hrest k
        refine ⟨rest, ?_, hall⟩
        rw [hmagic] at hreads
        simp [ovsdbLogReads, hread, hreads, wholeRecords, hwhole]
      · have hcut : log.file.drop log.position =
            (ovsdbLogComposeRecord lib j log.magic).take n := by
          rw [hstream, Nat.sub_eq_zero_of_le (by omega), take_zero, append_nil]
        simp only [wholeRecords, hwhole, if_false, take_zero, map_nil, take_nil, nil_append]
        rcases ovsdbLogRead_cut hm hj hstate (by omega) hcut with hread | ⟨error, hread⟩
        · have hexhausted : Exhausted lib log := ⟨_, hread, noRecord_none⟩
          exact hexhausted.reads (k + 1)
        · obtain ⟨results, hreads, hall⟩ := (exhausted_readFailed error).reads k
          refine ⟨.error error :: results, ?_, ?_⟩
          · rw [ovsdbLogReads, hread]
            show (do let results ← ovsdbLogReads lib k (readFailed log error).1
                     return (readFailed log error).2 :: results) = _
            rw [hreads]
            rfl
          · exact forall_mem_cons.mpr ⟨noRecord_error, hall⟩

/-! ## 6. Writing the file and opening it again -/

/-- Calls to `ovsdb_log_write`, one after the other, `none` if one of them fails. -/
def ovsdbLogWrites (lib : LogLib) : List Json → OvsdbLog → Option OvsdbLog
  | [], log => some log
  | j :: js, log =>
    match ovsdbLogWrite lib {} log j with
    | (log, none) => ovsdbLogWrites lib js log
    | (_, some _) => none

/-- The log is ready to append to its file. -/
structure OvsdbLog.AtEnd (log : OvsdbLog) : Prop where
  offset : log.offset = log.file.length
  position : log.state = .write → log.position = log.file.length

theorem writeRecord_atEnd (hj : j.IsContainer) (hlog : log.AtEnd) (hstate : log.state = .write) :
    ∃ log', writeRecord lib {} log j = (log', none) ∧ log'.AtEnd ∧ log'.magic = log.magic ∧
      log'.file = log.file ++ ovsdbLogComposeRecord lib j log.magic := by
  have hfile (record : List Char) : log.file.take log.position ++ record ++
      log.file.drop (log.position + record.length) = log.file ++ record := by
    rw [hlog.position hstate, take_length, drop_eq_nil_of_le (Nat.le_add_right _ _), append_nil]
  have hoffset := hlog.offset
  have hposition := hlog.position hstate
  cases j with
  | object | array =>
    refine ⟨_, rfl, ⟨?_, fun _ => ?_⟩, rfl, hfile _⟩
    · simp [hfile, hoffset]
    · simp [hposition]
  | _ => exact hj.elim

theorem ovsdbLogWrite_atEnd (hj : j.IsContainer) (hlog : log.AtEnd) :
    ∃ log', ovsdbLogWrite lib {} log j = (log', none) ∧ log'.AtEnd ∧ log'.magic = log.magic ∧
      log'.file = log.file ++ ovsdbLogComposeRecord lib j log.magic := by
  -- In every state but `OVSDB_LOG_WRITE` the file is first cut off at the offset.
  have htake : log.file.take log.offset = log.file := by rw [hlog.offset, take_length]
  have htruncated : ∃ log', writeRecord lib {}
      { log with
        state := .write
        position := log.offset
        file := log.file.take log.offset
        error := none } j = (log', none) ∧ log'.AtEnd ∧ log'.magic = log.magic ∧
      log'.file = log.file ++ ovsdbLogComposeRecord lib j log.magic := by
    rw [htake]
    exact writeRecord_atEnd hj ⟨hlog.offset, fun _ => hlog.offset⟩ rfl
  cases hstate : log.state with
  | write =>
    rw [ovsdbLogWrite, hstate]
    exact writeRecord_atEnd hj hlog hstate
  | _ =>
    rw [ovsdbLogWrite, hstate]
    exact htruncated

theorem ovsdbLogWrites_atEnd (hjs : ∀ j ∈ js, j.IsContainer) (hlog : log.AtEnd) :
    ∃ log', ovsdbLogWrites lib js log = some log' ∧
      log'.file = log.file ++ logRecords lib log.magic js := by
  induction js generalizing log with
  | nil => exact ⟨log, rfl, (append_nil _).symm⟩
  | cons j js ih =>
    obtain ⟨log', hwrite, hlog', hmagic, hfile⟩ :=
      @ovsdbLogWrite_atEnd lib log j (hjs j mem_cons_self) hlog
    obtain ⟨log'', hwrites, hfile'⟩ := ih (fun x hx => hjs x (mem_cons_of_mem _ hx)) hlog'
    refine ⟨log'', ?_, ?_⟩
    · rw [ovsdbLogWrites, hwrite]
      exact hwrites
    · rw [hfile', hfile, hmagic, append_assoc]
      rfl

theorem ovsdbLogOpen_cut (hne : line ≠ []) (hline : '\n' ∉ line) (hlen : line.length < headerSize) :
    ∃ error, ovsdbLogOpen name magic line = .error error := by
  rw [ovsdbLogOpen, fgets_rest hne hline hlen]
  dsimp only
  split
  · exact ⟨_, rfl⟩
  next h heq => exact absurd (takeWhile_subset _ (newline_mem_of_parseHeader heq)) hline

section

variable (hm : MagicOk magic)
include hm

theorem ovsdbLogOpen_nil :
    ovsdbLogOpen name magic [] = .ok { displayName := name, magic, file := [] } :=
  if_neg hm.bar

theorem isMagicOk_self : isMagicOk magic magic = true := by
  rw [isMagicOk, if_neg hm.bar, isMagicOkLoop, if_pos]
  simp

theorem ovsdbLogOpen_header (name : String) (hj : Recordable lib j) (rest : List Char) :
    ovsdbLogOpen name magic (composeHeader lib magic (composeData lib j) ++ rest) =
      .ok { displayName := name, magic
            file := composeHeader lib magic (composeData lib j) ++ rest } := by
  obtain ⟨hfgets, hcstr, hparse⟩ := fgets_composeHeader hm hj rest
  rw [ovsdbLogOpen, hfgets]
  dsimp only
  rw [hcstr, hparse]
  exact if_pos (isMagicOk_self hm)

theorem ovsdbLogOpen_take (hjs : ∀ j ∈ js, Recordable lib j) :
    ((∃ error, ovsdbLogOpen name magic ((logRecords lib magic js).take n) = .error error) ∧
      wholeRecords lib magic js n = 0) ∨
    ovsdbLogOpen name magic ((logRecords lib magic js).take n) =
      .ok { displayName := name, magic, file := (logRecords lib magic js).take n } := by
  by_cases hempty : (logRecords lib magic js).take n = []
  · right
    rw [hempty]
    exact ovsdbLogOpen_nil hm
  · cases js with
    | nil => exact absurd (take_nil) hempty
    | cons j js =>
      have hj := hjs j mem_cons_self
      have hrecords : logRecords lib magic (j :: js) = composeHeader lib magic (composeData lib j) ++
          (composeData lib j ++ logRecords lib magic js) := by
        rw [logRecords, flatMap_cons, ovsdbLogComposeRecord, append_assoc]
        rfl
      rcases Nat.lt_or_ge n (composeHeader lib magic (composeData lib j)).length with hlt | hge
      · left
        obtain ⟨hnewline, hlen⟩ := composeHeader_cut hm hj hlt _
        rw [← hrecords] at hnewline hlen
        constructor
        · exact ovsdbLogOpen_cut hempty hnewline hlen
        · rw [wholeRecords, ovsdbLogComposeRecord, length_append]
          exact if_neg (by omega)
      · right
        rw [hrecords, take_append, take_of_length_le hge]
        exact ovsdbLogOpen_header hm name hj _

end

theorem wholeRecords_length :
    wholeRecords lib magic js (logRecords lib magic js).length = js.length := by
  induction js with
  | nil => rfl
  | cons j js ih =>
    have hlen : (logRecords lib magic (j :: js)).length =
        (ovsdbLogComposeRecord lib j magic).length + (logRecords lib magic js).length := by
      rw [logRecords, flatMap_cons, length_append]
      rfl
    simp [wholeRecords, hlen, ih]

/-- A log that was written record by record and then cut off anywhere is read
    back up to the cut: the records that are whole, in order, and then never
    another one.  Without a cut these are all the records. -/
theorem ovsdbLogReads_of_truncated (lib : LogLib) (name : String) (magic : List Char)
    (hm : MagicOk magic) (js : List Json)
    (hjs : ∀ j ∈ js, Recordable lib j ∧ ∃ members, j = .object members) :
    ∃ new written, ovsdbLogOpen name magic [] = .ok new ∧
      ovsdbLogWrites lib js new = some written ∧
      wholeRecords lib magic js written.file.length = js.length ∧
      ∀ n, ((∃ error, ovsdbLogOpen name magic (written.file.take n) = .error error) ∧
          wholeRecords lib magic js n = 0) ∨
        ∃ log, ovsdbLogOpen name magic (written.file.take n) = .ok log ∧
          ∀ k, ∃ rest, ovsdbLogReads lib k log =
              some (((js.take (wholeRecords lib magic js n)).map (.ok <| some ·)).take k ++ rest) ∧
            ∀ r ∈ rest, NoRecord r := by
  have hnew : OvsdbLog.AtEnd { displayName := name, magic, file := [] } := ⟨rfl, fun _ => rfl⟩
  have hcontainer : ∀ j ∈ js, j.IsContainer := fun j hj => (hjs j hj).1.container
  obtain ⟨written, hwrites, hfile⟩ := @ovsdbLogWrites_atEnd lib _ js hcontainer hnew
  rw [nil_append] at hfile
  refine ⟨_, written, ovsdbLogOpen_nil hm, hwrites, ?_, ?_⟩
  · rw [hfile]
    exact wholeRecords_length
  · intro n
    rw [hfile]
    rcases ovsdbLogOpen_take hm (fun j hj => (hjs j hj).1) with hcut | hopen
    · exact .inl hcut
    · exact .inr ⟨_, hopen, ovsdbLogReads_take hm hjs rfl rfl⟩

def jsonMagic : List Char := "JSON".toList

theorem jsonMagic_ok : MagicOk jsonMagic where
  nul := by decide
  blank := by decide
  newline := by decide
  bar := by decide
  short := by decide

def zeroLib : LogLib := ⟨noDoubles, fun _ => 0⟩

theorem ovsdbLogReads_sampleJson : ∃ new written, ovsdbLogOpen "db" jsonMagic [] = .ok new ∧
      ovsdbLogWrites zeroLib [sampleJson, sampleJson] new = some written ∧
      wholeRecords zeroLib jsonMagic [sampleJson, sampleJson] written.file.length = 2 ∧
      ∀ n, ((∃ error, ovsdbLogOpen "db" jsonMagic (written.file.take n) = .error error) ∧
          wholeRecords zeroLib jsonMagic [sampleJson, sampleJson] n = 0) ∨
        ∃ log, ovsdbLogOpen "db" jsonMagic (written.file.take n) = .ok log ∧
          ∀ k, ∃ rest, ovsdbLogReads zeroLib k log =
              some ((([sampleJson, sampleJson].take
                (wholeRecords zeroLib jsonMagic [sampleJson, sampleJson] n)).map
                  (.ok <| some ·)).take k ++ rest) ∧
            ∀ r ∈ rest, NoRecord r := by
  apply ovsdbLogReads_of_truncated zeroLib "db" jsonMagic jsonMagic_ok [sampleJson, sampleJson]
  intro j hj
  have hsample : j = sampleJson := by simpa using hj
  rw [hsample]
  exact ⟨⟨trivial, sampleJson_plain, by decide, by decide +kernel⟩, _, rfl⟩

/-- An array can be written, but the record of one is not read back, whatever the hash function. -/
theorem array_not_read_back :
    (Json.array []).Plain ∧ ∀ sha1 : List Char → Sha1, ∃ new written log log' error,
      ovsdbLogOpen "db" jsonMagic [] = .ok new ∧
      ovsdbLogWrites ⟨noDoubles, sha1⟩ [.array []] new = some written ∧
      ovsdbLogOpen "db" jsonMagic written.file = .ok log ∧
      ovsdbLogRead ⟨noDoubles, sha1⟩ log = some (log', .error error) := by
  have hplain : (Json.array []).Plain := .array (forall_mem_nil _)
  refine ⟨hplain, ?_⟩
  intro sha1
  have hnew : OvsdbLog.AtEnd { displayName := "db", magic := jsonMagic, file := [] } :=
    ⟨rfl, fun _ => rfl⟩
  have hcontainer : ∀ j ∈ [Json.array []], j.IsContainer := by
    intro j hj
    rw [mem_singleton.mp hj]
    trivial
  have hj : Recordable ⟨noDoubles, sha1⟩ (.array []) :=
    ⟨trivial, hplain, by decide, show 3 < ullongMax by decide⟩
  obtain ⟨written, hwrites, hfile⟩ :=
    @ovsdbLogWrites_atEnd ⟨noDoubles, sha1⟩ _ _ hcontainer hnew
  rw [nil_append, logRecords, flatMap_singleton, ovsdbLogComposeRecord] at hfile
  have hopen := ovsdbLogOpen_header jsonMagic_ok "db" hj (composeData ⟨noDoubles, sha1⟩ (.array []))
  rw [← hfile] at hopen
  have hstream : written.file.drop 0 =
      ovsdbLogComposeRecord ⟨noDoubles, sha1⟩ (.array []) jsonMagic ++ [] := by
    rw [hfile, append_nil]
    rfl
  obtain ⟨error, hread⟩ :=
    @ovsdbLogRead_array _ ⟨.read, none, 0, 0, "db", jsonMagic, written.file, 0⟩ _ [] jsonMagic_ok hj
      rfl hstream ⟨[], rfl⟩
  exact ⟨_, written, _, _, error, ovsdbLogOpen_nil jsonMagic_ok, hwrites, hopen, hread⟩

end Ovsgw
