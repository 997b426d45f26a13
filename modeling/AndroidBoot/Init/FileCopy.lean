/- source: init/init/builtins.c, devices.c
   digest: The two copies of a file, for every pattern of short reads and writes. -/

import AndroidBoot.Init.State

set_option autoImplicit false

namespace AndroidBoot.Init.FileCopy

/-- What a `read` delivers; nothing is the end of the file, `none` an error. -/
abbrev Reads := List (Option (List UInt8))

abbrev Writes := List (Option Nat)

section Copy

def readLoop : Reads → Nat → Bool × List UInt8
  | _, 0 => (true, [])
  | [], _ + 1 => (true, [])
  | none :: _, _ + 1 => (false, [])
  | some bytes :: reads, brtr + 1 =>
    let got := bytes.take (brtr + 1)
    if got = [] then (true, [])
    else
      let rest := readLoop reads (brtr + 1 - got.length)
      (rest.1, got ++ rest.2)

def writeLoop : Writes → List UInt8 → Bool × List UInt8
  | _, [] => (true, [])
  | [], _ :: _ => (false, [])
  | none :: _, _ :: _ => (false, [])
  | some n :: writes, p@(_ :: _) =>
    let put := p.take n
    if put = [] then (true, [])
    else
      let rest := writeLoop writes (p.drop n)
      (rest.1, put ++ rest.2)

/-- What the system does during a call; `heap` is in the memory that `malloc` returns. -/
structure System where
  stat : Option Nat
  opened : Bool
  malloc : Bool
  heap : Nat → UInt8
  reads : Reads
  writes : Writes

/-- `brtr` and `brtw`; as an `int`, a size from 2 GB on is one that `read` refuses. -/
def System.size (w : System) : Nat := w.stat.getD 0 % 2 ^ 32

def System.buffer (w : System) : List UInt8 :=
  let got := (readLoop w.reads w.size).2
  got ++ (List.range' got.length (w.size - got.length)).map w.heap

def doCopy (w : System) : Bool × List UInt8 × List UInt8 :=
  let read := readLoop w.reads w.size
  let wrote := writeLoop w.writes w.buffer
  if w.stat.isNone || !w.opened || !w.malloc || 2 ^ 31 ≤ w.size then (false, [], [])
  else if read.1 then (wrote.1, read.2, wrote.2)
  else (false, read.2, [])

/-- The bytes that the answers move in front of the first error or end. -/
def moved (answers : List (Option Nat)) : Nat :=
  ((answers.takeWhile (·.any (0 < ·))).map (·.getD 0)).sum

/-- The answer that moves nothing more, if one comes. -/
def halt (answers : List (Option Nat)) : Option (Option Nat) :=
  (answers.dropWhile (·.any (0 < ·))).head?

def lengths (reads : Reads) : List (Option Nat) := reads.map (Option.map List.length)

theorem moved_cons {n : Nat} (some_ : n ≠ 0) (answers : List (Option Nat)) :
    moved (some n :: answers) = n + moved answers ∧ halt (some n :: answers) = halt answers := by
  have more : (some n : Option Nat).any (0 < ·) = true := by simpa using Nat.pos_of_ne_zero some_
  simp [moved, halt, List.takeWhile_cons_of_pos more, List.dropWhile_cons_of_pos more]

theorem readLoop_moved (reads : Reads) (brtr : Nat) :
    (readLoop reads brtr).2.length = min brtr (moved (lengths reads)) ∧
      ((readLoop reads brtr).1 = true ↔
        (halt (lengths reads) = some none → brtr ≤ moved (lengths reads))) := by
  fun_induction readLoop reads brtr with
  | case1 | case2 | case3 => simp [moved, halt, lengths]
  | case4 bytes reads brtr got nothing =>
    obtain rfl : bytes = [] := by simpa [got] using nothing
    simp [moved, halt, lengths]
  | case5 bytes reads brtr got some_ rest ih =>
    have short : got.length = min (brtr + 1) bytes.length := List.length_take
    have long : bytes.length ≠ 0 := fun none_ => some_ (by simp [got, List.length_eq_zero_iff.mp none_])
    obtain ⟨total, stop⟩ := moved_cons long (lengths reads)
    obtain ⟨count, done⟩ := ih
    rw [show lengths (some bytes :: reads) = some bytes.length :: lengths reads from rfl, total, stop,
      List.length_append, count, done]
    exact ⟨by omega, forall_congr' fun _ => by omega⟩

theorem writeLoop_moved (writes : Writes) (p : List UInt8) :
    (writeLoop writes p).2.length = min p.length (moved writes) ∧
      ((writeLoop writes p).1 = true ↔ p.length ≤ moved writes ∨ halt writes = some (some 0)) := by
  fun_induction writeLoop writes p with
  | case1 | case2 | case3 => simp [moved, halt]
  | case4 n writes b p put nothing =>
    obtain rfl : n = 0 := (List.take_eq_nil_iff.mp nothing).resolve_right (List.cons_ne_nil b p)
    simp [moved, halt]
  | case5 n writes b p put some_ rest ih =>
    have short : put.length = min n (b :: p).length := List.length_take
    have left : ((b :: p).drop n).length = (b :: p).length - n := List.length_drop
    have more : n ≠ 0 := fun zero => some_ (by simp [put, zero])
    obtain ⟨total, stop⟩ := moved_cons more writes
    obtain ⟨count, done⟩ := ih
    rw [total, stop, List.length_append, count, done, left]
    exact ⟨by omega, or_congr_left (by omega)⟩

theorem writeLoop_prefix (writes : Writes) (p : List UInt8) : (writeLoop writes p).2 <+: p := by
  fun_induction writeLoop writes p with
  | case1 | case2 | case3 | case4 => exact List.nil_prefix
  | case5 n writes b p put some_ rest ih =>
    have split : put ++ (b :: p).drop n = b :: p := List.take_append_drop n (b :: p)
    exact split ▸ (List.prefix_append_right_inj put).mpr ih

/-- The answers with which the call returns 0: an error of `read` comes only after all the bytes
that `stat` gives, and `write` takes these or ends with 0. -/
def System.Succeeds (w : System) : Prop :=
  (w.stat.isSome ∧ w.opened ∧ w.malloc ∧ w.size < 2 ^ 31) ∧
    (halt (lengths w.reads) = some none → w.size ≤ moved (lengths w.reads)) ∧
    (w.size ≤ moved w.writes ∨ halt w.writes = some (some 0))

theorem buffer_length (w : System) : w.buffer.length = w.size := by
  obtain ⟨count, -⟩ := readLoop_moved w.reads w.size
  rw [System.buffer, List.length_append, List.length_map, List.length_range']
  omega

theorem doCopy_succeeds (w : System) :
    ((doCopy w).1 = true ↔ w.Succeeds) ∧ (w.Succeeds →
      (doCopy w).2 = ((readLoop w.reads w.size).2, (writeLoop w.writes w.buffer).2)) := by
  obtain ⟨-, read⟩ := readLoop_moved w.reads w.size
  obtain ⟨-, wrote⟩ := writeLoop_moved w.writes w.buffer
  rw [buffer_length] at wrote
  have start : (w.stat.isNone || !w.opened || !w.malloc || 2 ^ 31 ≤ w.size : Bool) = true ↔
      ¬ (w.stat.isSome ∧ w.opened ∧ w.malloc ∧ w.size < 2 ^ 31) := by
    cases w.stat <;> cases w.opened <;> cases w.malloc <;> simp
  simp only [doCopy, System.Succeeds, ← read, ← wrote]
  split <;> rename_i begins
  · have stays := start.mp begins
    exact ⟨⟨Bool.noConfusion, fun all => absurd all.1 stays⟩, fun all => absurd all.1 stays⟩
  · rw [and_iff_right (not_not.mp (mt start.mpr begins))]
    cases done : (readLoop w.reads w.size).1 <;> simp

/-- A copy that returns 0 is exact just if the reads bring as many of the bytes that `stat` gives as
the writes take. -/
theorem do_copy_exact_iff (w : System) :
    ((doCopy w).1 = true → (doCopy w).2.2 = (doCopy w).2.1) ↔
      (w.Succeeds → min w.size (moved (lengths w.reads)) = min w.size (moved w.writes)) := by
  obtain ⟨returns, result⟩ := doCopy_succeeds w
  rw [returns]
  refine forall_congr' fun succeeds => ?_
  have read : (readLoop w.reads w.size).2 <+: w.buffer := List.prefix_append _ _
  have front := writeLoop_prefix w.writes w.buffer
  have wrote := (writeLoop_moved w.writes w.buffer).1
  rw [buffer_length] at wrote
  rw [result succeeds, ← (readLoop_moved w.reads w.size).1, ← wrote]
  refine ⟨fun same => congrArg List.length same.symm, fun same => ?_⟩
  rw [List.prefix_iff_eq_take.mp front, List.prefix_iff_eq_take.mp read, same]

theorem copy_adds_heap :
    doCopy ⟨some 2, true, true, fun _ => 7, [some [1]], [some 2]⟩ = (true, [1], [1, 7]) := by
  decide

end Copy

section Firmware

structure Piece where
  buf : List UInt8
  before : Nat
  nw : Nat

def Piece.sent (piece : Piece) : List UInt8 := piece.buf.take piece.nw

def Piece.due (piece : Piece) : List UInt8 := (piece.buf.drop piece.before).take piece.nw

def writeChunk (buf : List UInt8) : Writes → Nat → Bool × List Piece × Writes
  | writes, 0 => (true, [], writes)
  | [], _ + 1 => (false, [], [])
  | none :: writes, _ + 1 => (false, [], writes)
  | some n :: writes, nr + 1 =>
    let nw := min n (nr + 1)
    if nw = 0 then (false, [], writes)
    else
      let rest := writeChunk buf writes (nr + 1 - nw)
      (rest.1, ⟨buf, buf.length - (nr + 1), nw⟩ :: rest.2.1, rest.2.2)

def loadLoop : Reads → Writes → Int → Bool × List UInt8 × List Piece
  | [], _, _ => (true, [], [])
  | answer :: reads, writes, lenToCopy =>
    if lenToCopy ≤ 0 then (true, [], [])
    else match answer with
      | none => (false, [], [])
      | some bytes =>
        let buf := bytes.take 4096
        let chunk := writeChunk buf writes buf.length
        let rest := loadLoop reads chunk.2.2 (lenToCopy - buf.length)
        if buf = [] then (true, [], [])
        else if chunk.1 then (rest.1, buf ++ rest.2.1, chunk.2.1 ++ rest.2.2)
        else (false, buf, chunk.2.1)

structure Loaded where
  ok : Bool
  loading : List String
  read : List UInt8
  pieces : List Piece

def loadFirmware (stat : Option Nat) (reads : Reads) (writes : Writes) : Loaded :=
  match stat with
  | none => ⟨false, [], [], []⟩
  | some size =>
    let copy := loadLoop reads writes size
    ⟨copy.1, ["1", if copy.1 then "0" else "-1"], copy.2.1, copy.2.2⟩

theorem flatMap_eq_iff {pieces : List Piece}
    (lengths : ∀ piece ∈ pieces, piece.sent.length = piece.due.length) :
    pieces.flatMap Piece.sent = pieces.flatMap Piece.due ↔
      ∀ piece ∈ pieces, piece.sent = piece.due := by
  induction pieces with
  | nil => simp
  | cons piece pieces ih =>
    obtain ⟨length, lengths⟩ := List.forall_mem_cons.mp lengths
    rw [List.flatMap_cons, List.flatMap_cons, List.forall_mem_cons, ← ih lengths]
    exact ⟨fun same => List.append_inj same length, fun same => congrArg₂ _ same.1 same.2⟩

theorem writeChunk_due (buf : List UInt8) (writes : Writes) (nr : Nat) (le : nr ≤ buf.length)
    (done : (writeChunk buf writes nr).1 = true) :
    (writeChunk buf writes nr).2.1.flatMap Piece.due = buf.drop (buf.length - nr) ∧
      ∀ piece ∈ (writeChunk buf writes nr).2.1, piece.sent.length = piece.due.length := by
  fun_induction writeChunk buf writes nr with
  | case1 => simp
  | case2 | case3 | case4 => cases done
  | case5 n writes nr nw some_ rest ih =>
    obtain ⟨due, lengths⟩ := ih (by omega) done
    constructor
    · have place : buf.length - (nr + 1 - nw) = buf.length - (nr + 1) + nw := by omega
      rw [List.flatMap_cons, due, place, ← List.drop_drop]
      exact List.take_append_drop nw _
    · refine List.forall_mem_cons.mpr ⟨?_, lengths⟩
      simp only [Piece.sent, Piece.due, List.length_take, List.length_drop]
      omega

theorem loadLoop_due (reads : Reads) (writes : Writes) (lenToCopy : Int)
    (done : (loadLoop reads writes lenToCopy).1 = true) :
    (loadLoop reads writes lenToCopy).2.2.flatMap Piece.due =
        (loadLoop reads writes lenToCopy).2.1 ∧
      ∀ piece ∈ (loadLoop reads writes lenToCopy).2.2, piece.sent.length = piece.due.length := by
  fun_induction loadLoop reads writes lenToCopy with
  | case1 | case2 | case4 => simp
  | case3 | case6 => cases done
  | case5 reads writes lenToCopy more bytes buf chunk rest some_ sent ih =>
    obtain ⟨due, lengths⟩ := writeChunk_due buf writes buf.length (Nat.le_refl _) sent
    obtain ⟨due', lengths'⟩ := ih done
    rw [Nat.sub_self, List.drop_zero] at due
    exact ⟨(List.flatMap_append ..).trans (congrArg₂ _ due due'),
      List.forall_mem_append.mpr ⟨lengths, lengths'⟩⟩

theorem sent_eq_read_iff {stat : Option Nat} {reads : Reads} {writes : Writes}
    (done : (loadFirmware stat reads writes).ok = true) :
    (loadFirmware stat reads writes).pieces.flatMap Piece.sent =
        (loadFirmware stat reads writes).read ↔
      ∀ piece ∈ (loadFirmware stat reads writes).pieces, piece.sent = piece.due := by
  cases stat with
  | none => cases done
  | some size =>
    obtain ⟨due, lengths⟩ := loadLoop_due reads writes size done
    have each := flatMap_eq_iff lengths
    rw [due] at each
    exact each

/-- The lengths that come to be written, by the answers of `read`; `none` where one is an error. -/
def chunks : List (Option Nat) → Int → Option (List Nat)
  | [], _ => some []
  | answer :: answers, lenToCopy =>
    if lenToCopy ≤ 0 then some []
    else match answer with
      | none => none
      | some n =>
        if n = 0 then some []
        else (chunks answers (lenToCopy - (min 4096 n : Nat))).map (min 4096 n :: ·)

/-- The answers of `write` that are left behind `nr` bytes. -/
def taken : Writes → Nat → Option Writes
  | writes, 0 => some writes
  | some n :: writes, nr + 1 => if n = 0 then none else taken writes (nr + 1 - n)
  | _, _ + 1 => none

def delivered : List Nat → Writes → Bool
  | [], _ => true
  | nr :: sizes, writes => (taken writes nr).any (delivered sizes)

theorem writeChunk_taken (buf : List UInt8) (writes : Writes) (nr : Nat) :
    taken writes nr =
      if (writeChunk buf writes nr).1 then some (writeChunk buf writes nr).2.2 else none := by
  fun_induction writeChunk buf writes nr with
  | case1 writes => cases writes <;> simp [taken]
  | case2 | case3 => simp [taken]
  | case4 n writes nr nw zero => simp [taken, show n = 0 by omega]
  | case5 n writes nr nw some_ rest ih =>
    have left : nr + 1 - n = nr + 1 - nw := by omega
    rw [taken, if_neg (by omega), left]
    exact ih

theorem chunks_cons {bytes : List UInt8} {lenToCopy : Int} (more : ¬ lenToCopy ≤ 0)
    (some_ : bytes.take 4096 ≠ []) (reads : Reads) :
    chunks (lengths (some bytes :: reads)) lenToCopy =
      (chunks (lengths reads) (lenToCopy - (bytes.take 4096).length)).map
        ((bytes.take 4096).length :: ·) := by
  have long : bytes.length ≠ 0 := fun none_ => some_ (by simp [List.length_eq_zero_iff.mp none_])
  simp [lengths, chunks, more, List.length_eq_zero_iff.not.mp long]

theorem loadLoop_ok (reads : Reads) (writes : Writes) (lenToCopy : Int) :
    (loadLoop reads writes lenToCopy).1 =
      (chunks (lengths reads) lenToCopy).any (delivered · writes) := by
  fun_induction loadLoop reads writes lenToCopy with
  | case1 => rfl
  | case2 reads writes lenToCopy answer done => simp [lengths, chunks, done, delivered]
  | case3 reads writes lenToCopy more => simp [lengths, chunks, more]
  | case4 writes lenToCopy reads more bytes buf chunk nothing =>
    obtain rfl : bytes = [] := by simpa [buf] using nothing
    simp [lengths, chunks, more, delivered]
  | case5 reads writes lenToCopy more bytes buf chunk rest some_ sent ih =>
    have left : taken writes buf.length = some chunk.2.2 := by
      rw [writeChunk_taken buf, if_pos sent]
    rw [chunks_cons more some_, Option.any_map]
    simp only [delivered]
    rw [left]
    exact ih
  | case6 reads writes lenToCopy more bytes buf chunk some_ failed =>
    have left : taken writes buf.length = none := by rw [writeChunk_taken buf, if_neg failed]
    rw [chunks_cons more some_, Option.any_map]
    simp only [delivered]
    rw [left]
    simp

theorem writeChunk_places (buf : List UInt8) (writes : Writes) (nr : Nat) (le : nr ≤ buf.length) :
    ∀ piece ∈ (writeChunk buf writes nr).2.1, piece.buf = buf ∧ buf.length - nr ≤ piece.before ∧
      0 < piece.nw ∧ piece.before + piece.nw ≤ buf.length := by
  fun_induction writeChunk buf writes nr with
  | case1 | case2 | case3 | case4 => simp
  | case5 n writes nr nw some_ rest ih =>
    have taken : 0 < nw ∧ buf.length - (nr + 1) + nw ≤ buf.length := by omega
    refine List.forall_mem_cons.mpr ⟨⟨rfl, Nat.le_refl _, taken⟩, fun piece mem => ?_⟩
    obtain ⟨same, place, more, inside⟩ := ih (by omega) piece mem
    exact ⟨same, by omega, more, inside⟩

theorem writeChunk_some {buf : List UInt8} {writes : Writes} {nr : Nat} (left : nr ≠ 0)
    (sent : (writeChunk buf writes nr).1 = true) : ∃ piece, piece ∈ (writeChunk buf writes nr).2.1 := by
  fun_cases writeChunk buf writes nr with
  | case1 => exact absurd rfl left
  | case2 | case3 => simp [writeChunk] at sent
  | case4 n writes nr nw zero => simp [writeChunk, show n = 0 by omega] at sent
  | case5 => exact ⟨_, List.mem_cons_self⟩

theorem writeChunk_whole {buf : List UInt8} {writes : Writes} (some_ : buf ≠ [])
    (sent : (writeChunk buf writes buf.length).1 = true) :
    (∀ piece ∈ (writeChunk buf writes buf.length).2.1, piece.before = 0) ↔
      ∃ m, writes[0]? = some (some m) ∧ buf.length ≤ m := by
  have long : buf.length ≠ 0 := List.length_eq_zero_iff.not.mpr some_
  generalize full : buf.length = nr at sent long ⊢
  fun_cases writeChunk buf writes nr with
  | case1 => exact absurd rfl long
  | case2 | case3 => simp [writeChunk] at sent
  | case4 n writes nr nw zero => simp [writeChunk, show n = 0 by omega] at sent
  | case5 n writes nr nw some_ rest =>
    by_cases whole : nr + 1 ≤ n
    · have none_ : nr + 1 - nw = 0 := by omega
      simp only [rest, none_, writeChunk, full, List.mem_singleton, forall_eq, Nat.sub_self,
        List.getElem?_cons_zero, Option.some.injEq, exists_eq_left', true_iff]
      exact whole
    · have later : rest.1 = true := by
        rw [writeChunk, if_neg some_] at sent
        exact sent
      have left : nr + 1 - nw ≠ 0 := by omega
      obtain ⟨piece, mem⟩ := writeChunk_some left later
      obtain ⟨-, place, -⟩ := writeChunk_places buf writes (nr + 1 - nw) (by omega) piece mem
      refine iff_of_false (fun zero => ?_) (fun ⟨m, same, enough⟩ => ?_)
      · have start := zero piece (List.mem_cons_of_mem _ mem)
        omega
      · obtain rfl : n = m := by simpa using same
        exact whole enough

theorem writeChunk_rest {buf : List UInt8} {writes : Writes} {m nr : Nat} (left : nr ≠ 0)
    (enough : nr ≤ m) : (writeChunk buf (some m :: writes) nr).2.2 = writes := by
  obtain ⟨nr, rfl⟩ := Nat.exists_eq_succ_of_ne_zero left
  simp [writeChunk, show min m (nr + 1) = nr + 1 by omega]

theorem loadLoop_whole (reads : Reads) (writes : Writes) (lenToCopy : Int) :
    ∀ sizes ∈ chunks (lengths reads) lenToCopy, delivered sizes writes = true →
      ((∀ piece ∈ (loadLoop reads writes lenToCopy).2.2, piece.before = 0) ↔
        ∀ k n : Nat, sizes[k]? = some n → ∃ m, writes[k]? = some (some m) ∧ n ≤ m) := by
  fun_induction loadLoop reads writes lenToCopy with
  | case1 =>
    intro sizes read _
    cases read
    simp
  | case2 reads writes lenToCopy answer done =>
    intro sizes read all
    obtain rfl : sizes = [] := by simpa [lengths, chunks, done] using read.symm
    simp
  | case3 reads writes lenToCopy more =>
    intro sizes read all
    simp [lengths, chunks, more] at read
  | case4 writes lenToCopy reads more bytes buf chunk nothing =>
    intro sizes read all
    obtain rfl : bytes = [] := by simpa [buf] using nothing
    obtain rfl : sizes = [] := by simpa [lengths, chunks, more] using read.symm
    simp
  | case5 reads writes lenToCopy more bytes buf chunk rest some_ sent ih =>
    intro sizes read all
    rw [chunks_cons more some_] at read
    obtain ⟨later, next, rfl⟩ := Option.map_eq_some_iff.mp read
    rw [delivered, writeChunk_taken buf, if_pos sent] at all
    rw [List.forall_mem_append, writeChunk_whole some_ sent, ih later next all]
    have long : buf.length ≠ 0 := List.length_eq_zero_iff.not.mpr some_
    -- behind a `write` that takes the chunk the next answer is the next chunk's
    have behind : ∀ m, writes[0]? = some (some m) → buf.length ≤ m → ∀ k, writes[k + 1]? = chunk.2.2[k]? := by
      intro m first enough k
      cases writes with
      | nil => cases first
      | cons answer writes =>
        obtain rfl := Option.some.inj first
        rw [List.getElem?_cons_succ, show chunk.2.2 = writes from writeChunk_rest long enough]
    constructor
    · rintro ⟨⟨m, first, enough⟩, others⟩ k n at_
      cases k with
      | zero => exact ⟨m, first, (Option.some.inj at_) ▸ enough⟩
      | succ k =>
        rw [behind m first enough]
        exact others k n at_
    · intro each
      obtain ⟨m, first, enough⟩ := each 0 buf.length rfl
      exact ⟨⟨m, first, enough⟩, fun k n at_ => behind m first enough k ▸ each (k + 1) n at_⟩
  | case6 reads writes lenToCopy more bytes buf chunk some_ failed =>
    intro sizes read all
    rw [chunks_cons more some_] at read
    obtain ⟨later, next, rfl⟩ := Option.map_eq_some_iff.mp read
    rw [delivered, writeChunk_taken buf, if_neg failed] at all
    cases all

theorem loadLoop_places (reads : Reads) (writes : Writes) (lenToCopy : Int) :
    ∀ piece ∈ (loadLoop reads writes lenToCopy).2.2, ∃ bytes, some bytes ∈ reads ∧
      piece.buf = bytes.take 4096 ∧ 0 < piece.nw ∧ piece.before + piece.nw ≤ piece.buf.length := by
  have first (reads : Reads) (bytes : List UInt8) (writes : Writes) :
      ∀ piece ∈ (writeChunk (bytes.take 4096) writes (bytes.take 4096).length).2.1,
        ∃ bytes', some bytes' ∈ some bytes :: reads ∧ piece.buf = bytes'.take 4096 ∧
          0 < piece.nw ∧ piece.before + piece.nw ≤ piece.buf.length := by
    intro piece mem
    obtain ⟨same, -, more, inside⟩ := writeChunk_places _ writes _ (Nat.le_refl _) piece mem
    exact ⟨bytes, List.mem_cons_self, same, more, same ▸ inside⟩
  fun_induction loadLoop reads writes lenToCopy with
  | case1 | case2 | case3 | case4 => simp
  | case5 reads writes lenToCopy more bytes buf chunk rest some_ sent ih =>
    refine List.forall_mem_append.mpr ⟨first reads bytes writes, fun piece mem => ?_⟩
    obtain ⟨bytes', from_, place⟩ := ih piece mem
    exact ⟨bytes', List.mem_cons_of_mem _ from_, place⟩
  | case6 reads writes lenToCopy more bytes buf chunk some_ failed => exact first reads bytes writes

def headed : Nat → List UInt8
  | 0 => []
  | n + 1 => 1 :: List.replicate n 0

@[simp] theorem headed_length (n : Nat) : (headed n).length = n := by
  cases n <;> simp [headed]

theorem headed_resent {piece : Piece} {n : Nat} (buf : piece.buf = (headed n).take 4096)
    (more : 0 < piece.nw) (inside : piece.before + piece.nw ≤ piece.buf.length)
    (same : piece.sent = piece.due) : piece.before = 0 := by
  by_contra later
  have first : piece.sent[0]? = piece.due[0]? := congrArg (·[0]?) same
  obtain ⟨n, rfl⟩ : ∃ m, n = m + 1 :=
    Nat.exists_eq_succ_of_ne_zero fun zero => by simp [buf, zero, headed] at inside; omega
  obtain ⟨before, place⟩ := Nat.exists_eq_succ_of_ne_zero later
  simp [Piece.sent, Piece.due, buf, headed, place, more, List.getElem?_replicate] at first

end Firmware

end AndroidBoot.Init.FileCopy
