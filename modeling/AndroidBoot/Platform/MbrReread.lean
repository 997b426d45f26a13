/- source: bootable/lk/platform/msm_shared/partition_parser.c
   digest: The partition table read a second time from the same MBR, and names found in it. -/

import AndroidBoot.Platform.MbrFlash

set_option autoImplicit false

namespace AndroidBoot.Platform.MbrReread

open Foundation.Memory Mmc PartitionTable MbrFlash

section Scan

def blockAt (content : Nat → UInt8) (address : Nat) : Nat → UInt8 := fun i => content (address + i)

def signed (block : Nat → UInt8) : Bool := block 0x1FE = 0x55 && block 0x1FF = 0xAA

/-- The slots of an MBR from the `i`th on, up to a protective one, and whether there was one. -/
def slotRows (block : Nat → UInt8) : Nat → Nat → List Row × Bool
  | 0, _ => ([], false)
  | left + 1, i =>
    if (slot block i).dtype = 0xEE then ([], true)
    else
      let rest := slotRows block left (i + 1)
      (slot block i :: rest.1, rest.2)

/-- The logical partitions of a chain of EBRs from a sector on, as many as the table has room
for. -/
def ebrRows (content : Nat → UInt8) (first : Nat) : Nat → Nat → List Row
  | 0, _ => []
  | left + 1, current =>
    let block := blockAt content (current * 512 % 2 ^ 32)
    let row := rowAt block 0x1BE
    let link := le32 block (0x1CE + 8)
    if signed block then
      { row with firstLba := (row.firstLba + current) % 2 ^ 32 } ::
        if link = 0 then [] else ebrRows content first left ((first + link) % 2 ^ 32)
    else []

/-- The partitions that a card describes, and whether a protective one ends them. -/
def mbrRows (content : Nat → UInt8) : List Row × Bool :=
  let block := blockAt content 0
  let slots := slotRows block 4 0
  let extended := slot block 3
  if slots.2 then slots
  else if extended.dtype = 0x05 then
    (slots.1 ++ ebrRows content extended.firstLba (numPartitions - 4) extended.firstLba, false)
  else slots

def addRows (t : Table) (rows : List Row) : Table :=
  rows.foldl (fun t row => t.addMbr row.dtype row.status row.firstLba row.size) t

/-- The table after the card has been read into it. -/
def reload (content : Nat → UInt8) (t : Table) : Table :=
  let rows := mbrRows content
  if signed (blockAt content 0) then
    let u := addRows { t with count := 0 } rows.1
    if rows.2 then { u with gpt := true } else u
  else t

variable (t : Table)

theorem addRows_cons (row : Row) (rows : List Row) :
    addRows t (row :: rows) =
      addRows (t.addMbr row.dtype row.status row.firstLba row.size) rows := rfl

theorem addRows_append (front back : List Row) :
    addRows t (front ++ back) = addRows (addRows t front) back := List.foldl_append

theorem addRows_count (rows : List Row) : (addRows t rows).count = t.count + rows.length := by
  induction rows generalizing t with
  | nil => rfl
  | cons row rows ih =>
    rw [addRows_cons, ih, addMbr_count, List.length_cons]
    omega

theorem addRows_gpt (rows : List Row) : (addRows t rows).gpt = t.gpt := by
  induction rows generalizing t with
  | nil => rfl
  | cons row rows ih => rw [addRows_cons, ih, addMbr_gpt]

theorem slotRows_length (block : Nat → UInt8) (left i : Nat) :
    (slotRows block left i).2 = false → (slotRows block left i).1.length = left := by
  induction left generalizing i with
  | zero =>
    intro _
    rfl
  | succ left ih =>
    rw [slotRows]
    split
    · intro protective
      cases protective
    · intro ordinary
      rw [List.length_cons, ih (i + 1) ordinary]

end Scan

section Reader

variable {content buffer : Nat → UInt8}

theorem signed_iff (block : Nat → UInt8) : signed block = true ↔ Signed block 0 := by
  rw [signed, Bool.and_eq_true, decide_eq_true_eq, decide_eq_true_eq]
  rfl

theorem signed_blockAt {address place : Nat}
    (same : Matches content address buffer place blockSize) :
    signed (blockAt content address) = true ↔ Signed buffer place := by
  rw [signed_iff, Signed, Signed, blockAt, blockAt, Nat.zero_add, Nat.zero_add,
    same 0x1FE (by decide), same 0x1FF (by decide)]

theorem signature_matches {address : Nat} (same : Matches buffer 0 content address blockSize) :
    (partitionVerifyMbrSignature blockSize (onStack buffer) 0).1 =
      !signed (blockAt content address) := by
  have valid := (signature_iff (onStack buffer) (show 511 ≤ blockSize by decide)).trans
    (signed_blockAt fun i below => (same i below).symm).symm
  cases checked : signed (blockAt content address) <;> simpa [checked] using valid

theorem rowAt_blockAt {address place i : Nat}
    (same : Matches content address buffer place blockSize) (within : i + 16 ≤ blockSize) :
    rowAt (blockAt content address) i = rowAt buffer (place + i) := rowAt_matches same within

theorem rowAt_block {address i : Nat} (same : Matches buffer 0 content address blockSize)
    (within : i + 16 ≤ blockSize) : rowAt buffer i = rowAt (blockAt content address) i := by
  rw [rowAt_blockAt (fun i below => (same i below).symm) within, Nat.zero_add]

theorem mbrEntries_eq (same : Matches buffer 0 content 0 blockSize) :
    ∀ (left i : Nat) (t : Table), i + left ≤ 4 →
      let rows := slotRows (blockAt content 0) left i
      mbrEntries buffer left i t =
        (rows.2, if rows.2 then { addRows t rows.1 with gpt := true } else addRows t rows.1) := by
  intro left
  induction left with
  | zero =>
    intro i t _
    rfl
  | succ left ih =>
    intro i t bound
    have row : slot buffer i = slot (blockAt content 0) i :=
      rowAt_block same (by unfold blockSize; omega)
    have step : mbrEntries buffer (left + 1) i t =
        if (slot buffer i).dtype = 0xEE then (true, { t with gpt := true })
        else mbrEntries buffer left (i + 1) (t.addMbr (slot buffer i).dtype (slot buffer i).status
          (slot buffer i).firstLba (slot buffer i).size) := rfl
    rw [step, row, slotRows]
    by_cases protective : (slot (blockAt content 0) i).dtype = 0xEE
    · rw [if_pos protective, if_pos protective]
      rfl
    · rw [if_neg protective, if_neg protective, ih (i + 1) _ (by omega)]
      rfl

theorem read_sector {card : Card} (sure : card.Reliable) (same : card.content = content)
    (address : Nat) (aligned : blockSize ∣ address) (reached : address < 2 ^ 32)
    (buffer : Nat → UInt8) :
    ∃ buffer' card', mmcBootReadFromCard card address blockSize buffer 0 =
        (false, buffer', card') ∧ Matches buffer' 0 content address blockSize ∧
      card'.Reliable ∧ card'.content = content := by
  have fetched : Fetched card address buffer 0 blockSize
      (mmcBootReadFromCard card address blockSize buffer 0) :=
    mmcBootReadFromCard_fetched buffer 0 aligned (Nat.lt_of_lt_of_le reached card.le_reach)
  obtain ⟨passed, sure'⟩ := fetched.succeeds sure
  exact ⟨_, _, Prod.ext passed rfl, same ▸ fetched.block passed, sure', fetched.content.trans same⟩

theorem sector_lt (sector : Nat) : sector * 512 % 2 ^ 32 < 2 ^ 32 := Nat.mod_lt _ (by decide)

theorem ebrEntries_eq (first : Nat) :
    ∀ (left fuel current : Nat) (buffer : Nat → UInt8) (card : Card) (t : Table),
      t.count + left = numPartitions → 0 < left → left ≤ fuel → card.Reliable →
      card.content = content →
      Matches buffer 0 content (current * 512 % 2 ^ 32) blockSize →
      ∃ card', ebrEntries first fuel current buffer card t =
          (false, card', addRows t (ebrRows content first left current)) ∧
        card'.Reliable ∧ card'.content = content := by
  intro left
  induction left with
  | zero =>
    intro _ _ _ _ _ _ some_
    exact absurd some_ (Nat.lt_irrefl 0)
  | succ left ih =>
    intro fuel current buffer card t room _ enough sure kept same
    obtain ⟨fuel, rfl⟩ : ∃ n, fuel = n + 1 := ⟨fuel - 1, by omega⟩
    rw [ebrEntries, signature_matches same, ebrRows]
    have row := rowAt_block (i := 0x1BE) same (by decide)
    have next := rowAt_block (i := 0x1CE) same (by decide)
    generalize blockAt content (current * 512 % 2 ^ 32) = block at row next ⊢
    have link : le32 buffer (0x1CE + 8) = le32 block (0x1CE + 8) := congrArg Row.firstLba next
    have entry : t.addMbr (buffer (0x1BE + 4)).toNat (buffer 0x1BE).toNat
        ((le32 buffer (0x1BE + 8) + current) % 2 ^ 32) (le32 buffer (0x1BE + 12)) =
        t.addMbr (rowAt block 0x1BE).dtype (rowAt block 0x1BE).status
          (((rowAt block 0x1BE).firstLba + current) % 2 ^ 32) (rowAt block 0x1BE).size := by
      rw [← row]
      rfl
    rw [entry, link]
    generalize le32 block (0x1CE + 8) = next
    generalize rowAt block 0x1BE = row
    cases signed block with
    | false => exact ⟨card, rfl, sure, kept⟩
    | true =>
      have counted := addMbr_count t row.dtype row.status ((row.firstLba + current) % 2 ^ 32)
        row.size
      simp only [Bool.not_true, Bool.false_eq_true, if_false, if_true, addRows_cons]
      generalize t.addMbr row.dtype row.status ((row.firstLba + current) % 2 ^ 32) row.size = u
        at counted ⊢
      by_cases full : u.count = numPartitions
      · obtain rfl : left = 0 := by omega
        rw [if_pos full]
        refine ⟨card, ?_, sure, kept⟩
        split <;> rfl
      · split_ifs with last
        · exact ⟨card, rfl, sure, kept⟩
        · obtain ⟨buffer', card', ran, read, sure', kept'⟩ := read_sector sure kept _
            (dvd_sector ((first + next) % 2 ^ 32)) (sector_lt _) buffer
          rw [ran]
          exact ih fuel ((first + next) % 2 ^ 32) buffer' card' u (by omega) (by omega) (by omega)
            sure' kept' read

theorem mmcBootReadMbr_eq {card : Card} (sure : card.Reliable) (stack : Nat → UInt8) (t : Table) :
    ∃ card', mmcBootReadMbr stack card t =
        (!signed (blockAt card.content 0), card', reload card.content t) ∧
      card'.Reliable ∧ card'.content = card.content := by
  obtain ⟨buffer, card', ran, same, sure', kept⟩ :=
    read_sector sure rfl 0 (Nat.dvd_zero _) (by decide) stack
  rw [mmcBootReadMbr, ran]
  dsimp only
  rw [signature_matches same, reload]
  cases checked : signed (blockAt card.content 0) with
  | false => exact ⟨card', rfl, sure', kept⟩
  | true =>
    have last : (buffer (0x1BE + 3 * 0x10 + 4)).toNat = (slot (blockAt card.content 0) 3).dtype :=
      congrArg Row.dtype (rowAt_block same (by decide))
    have sector : le32 buffer (0x1BE + 3 * 0x10 + 8) =
        (slot (blockAt card.content 0) 3).firstLba :=
      congrArg Row.firstLba (rowAt_block same (by decide))
    rw [mbrEntries_eq same 4 0 _ (Nat.le_refl _), last, sector, mbrRows]
    have whole := slotRows_length (blockAt card.content 0) 4 0
    generalize slotRows (blockAt card.content 0) 4 0 = slots at whole ⊢
    obtain ⟨rows, protective⟩ := slots
    cases protective with
    | true => exact ⟨card', rfl, sure', kept⟩
    | false =>
      simp only [Bool.false_eq_true, if_false]
      generalize slot (blockAt card.content 0) 3 = extended
      by_cases chain : extended.dtype = 0x05
      · rw [if_neg (not_not.mpr chain), if_pos chain]
        obtain ⟨buffer', second, ran', same', sure', kept'⟩ := read_sector sure' kept _
          (dvd_sector extended.firstLba) (sector_lt _) buffer
        have four : (addRows { t with count := 0 } rows).count + (numPartitions - 4) =
            numPartitions := by
          rw [addRows_count, whole rfl]
          rfl
        obtain ⟨final, read, sure', kept'⟩ := ebrEntries_eq extended.firstLba
          (numPartitions - 4) numPartitions extended.firstLba buffer' second _ four (by decide)
          (by decide) sure' kept' same'
        rw [ran']
        refine ⟨final, ?_, sure', kept'⟩
        simp only [Bool.false_eq_true, if_false, addRows_append]
        exact read
      · rw [if_pos chain, if_neg chain]
        exact ⟨card', rfl, sure', kept⟩

end Reader

section Names

structure Counters where
  ext3 : Nat
  vfat : Nat
  deriving DecidableEq, Repr

def countersOf (t : Table) : Counters := ⟨t.ext3Count, t.vfatCount⟩

/-- A type whose name comes from `ext3_partitions`. -/
def isExt3 (type : Nat) : Bool := type = 0x83

/-- A type whose name comes from `vfat_partitions`. -/
def isVfat (type : Nat) : Bool := type = 0x06 || type = 0x0C

def ext3Text (n : Nat) : Option (List UInt8) := ext3Partitions[n]?.map fun name => ascii name ++ [0]

/-- The names of the second list, whose last one stands for none. -/
def vfatText (n : Nat) : Option (List UInt8) :=
  vfatPartitions.dropLast[n]?.map fun name => ascii name ++ [0]

def text (c : Counters) (type : Nat) : Option (List UInt8) :=
  if isVfat type then vfatText c.vfat
  else if isExt3 type then ext3Text c.ext3
  else (fixedName type).map ascii

def Counters.next (c : Counters) (type : Nat) : Counters :=
  if isVfat type then { c with vfat := min 2 (c.vfat + 1) }
  else if isExt3 type then { c with ext3 := min 5 (c.ext3 + 1) }
  else c

def Counters.InRange (c : Counters) : Prop := c.ext3 ≤ 5 ∧ c.vfat ≤ 2

def fill (row : Row) (text : Option (List UInt8)) (entry : Entry) : Entry :=
  { entry with
    dtype := row.dtype
    attributeFlag := row.status
    firstLba := row.firstLba
    size := row.size
    name := match text with
      | none => entry.name
      | some text => text ++ entry.name.drop text.length }

theorem next_inRange {c : Counters} (lawful : c.InRange) (type : Nat) : (c.next type).InRange := by
  unfold Counters.next
  split
  · exact ⟨lawful.1, Nat.min_le_left _ _⟩
  · split
    · exact ⟨Nat.min_le_left _ _, lawful.2⟩
    · exact lawful

/-- A name is put in front of that of the entry at `partition_count`. -/
def named (t : Table) (text : Option (List UInt8)) (c : Counters) : Table where
  entries := fun n =>
    if n = t.count then
      match text with
      | none => t.entries n
      | some text => (t.entries n).nameFront text
    else t.entries n
  count := t.count
  gpt := t.gpt
  ext3Count := c.ext3
  vfatCount := c.vfat

theorem named_none (t : Table) : named t none (countersOf t) = t := by
  simp [named, countersOf]

theorem mbrFillName_eq (t : Table) (lawful : (countersOf t).InRange) (type : Nat) :
    mbrFillName t type = named t (text (countersOf t) type) ((countersOf t).next type) := by
  obtain ⟨ext3, vfat⟩ := lawful
  obtain ⟨entries, count, gpt, k, v⟩ := t
  simp only [countersOf] at ext3 vfat ⊢
  by_cases modem : type = 0x06 ∨ type = 0x0C
  · have class_ : isVfat type = true := by simpa [isVfat] using modem
    rw [mbrFillName, if_pos modem, text, if_pos class_, Counters.next, if_pos class_]
    rcases v with _ | _ | _ | v
    · rfl
    · rfl
    · exact (named_none _).symm
    · omega
  · have class_ : ¬ isVfat type = true := by simpa [isVfat] using modem
    rw [mbrFillName, if_neg modem, text, if_neg class_, Counters.next, if_neg class_]
    by_cases userdata : type = 0x83
    · have ext3_ : isExt3 type = true := decide_eq_true userdata
      rw [if_pos userdata, if_pos ext3_, if_pos ext3_]
      rcases k with _ | _ | _ | _ | _ | _ | k
      · rfl
      · rfl
      · rfl
      · rfl
      · rfl
      · exact (named_none _).symm
      · omega
    · have ext3_ : ¬ isExt3 type = true := fun yes => userdata (of_decide_eq_true yes)
      rw [if_neg userdata, if_neg ext3_, if_neg ext3_]
      cases fixedName type with
      | none => exact (named_none _).symm
      | some name => rfl

theorem addMbr_eq (t : Table) (lawful : (countersOf t).InRange) (row : Row) :
    t.addMbr row.dtype row.status row.firstLba row.size =
      { entries := fun n =>
          if n = t.count then fill row (text (countersOf t) row.dtype) (t.entries n)
          else t.entries n
        count := t.count + 1
        gpt := t.gpt
        ext3Count := ((countersOf t).next row.dtype).ext3
        vfatCount := ((countersOf t).next row.dtype).vfat } := by
  have filled (f : Entry → Entry) : mbrFillName (t.update f) row.dtype =
      named (t.update f) (text (countersOf t) row.dtype) ((countersOf t).next row.dtype) :=
    mbrFillName_eq (t.update f) lawful row.dtype
  rw [Table.addMbr, filled]
  simp only [named, Table.update]
  congr 1
  funext n
  split_ifs
  · cases text (countersOf t) row.dtype <;> rfl
  · rfl

def texts (c : Counters) : List Row → List (Option (List UInt8))
  | [] => []
  | row :: rows => text c row.dtype :: texts (c.next row.dtype) rows

def Counters.after (c : Counters) (rows : List Row) : Counters :=
  rows.foldl (fun c row => c.next row.dtype) c

theorem addRows_entries (rows : List Row) (t : Table) (lawful : (countersOf t).InRange) :
    countersOf (addRows t rows) = (countersOf t).after rows ∧
      (∀ n, n < t.count → (addRows t rows).entries n = t.entries n) ∧
      (∀ n, t.count + rows.length ≤ n → (addRows t rows).entries n = t.entries n) ∧
      ∀ j row s, rows[j]? = some row → (texts (countersOf t) rows)[j]? = some s →
        (addRows t rows).entries (t.count + j) = fill row s (t.entries (t.count + j)) := by
  induction rows generalizing t with
  | nil =>
    refine ⟨rfl, fun _ _ => rfl, fun _ _ => rfl, ?_⟩
    intro j row s found
    cases found
  | cons row rows ih =>
    have step := addMbr_eq t lawful row
    generalize made : t.addMbr row.dtype row.status row.firstLba row.size = u at step
    have lawful' : (countersOf u).InRange := by
      rw [step]
      exact next_inRange lawful row.dtype
    have counters' : countersOf u = (countersOf t).next row.dtype := by
      rw [step]
      rfl
    have count' : u.count = t.count + 1 := by rw [step]
    have other (n : Nat) (apart : n ≠ t.count) : u.entries n = t.entries n := by
      rw [step]
      exact if_neg apart
    obtain ⟨counters, before, behind, here⟩ := ih u lawful'
    rw [addRows_cons, made]
    refine ⟨?_, ?_, ?_, ?_⟩
    · rw [counters, counters']
      rfl
    · intro n below
      rw [before n (by omega), other n (by omega)]
    · intro n above
      rw [List.length_cons] at above
      rw [behind n (by omega), other n (by omega)]
    · intro j row' s found copied
      cases j with
      | zero =>
        cases found
        cases copied
        rw [Nat.add_zero, before t.count (by omega), step]
        exact if_pos rfl
      | succ j =>
        have copied' : (texts (countersOf u) rows)[j]? = some s := by
          rw [counters']
          exact copied
        have place : t.count + (j + 1) = u.count + j := by omega
        rw [place, here j row' s found copied', other _ (by omega)]

end Names

section Kinds

inductive Kind where
  | ext3 | vfat
  deriving DecidableEq, Repr

def Kind.holds : Kind → Nat → Bool
  | .ext3 => isExt3
  | .vfat => isVfat

def Kind.counter : Kind → Counters → Nat
  | .ext3 => Counters.ext3
  | .vfat => Counters.vfat

def Kind.limit : Kind → Nat
  | .ext3 => 5
  | .vfat => 2

def Kind.text : Kind → Nat → Option (List UInt8)
  | .ext3 => ext3Text
  | .vfat => vfatText

def Kind.among (kind : Kind) (rows : List Row) : Nat := rows.countP fun row => kind.holds row.dtype

variable (kind : Kind)

theorem Kind.among_cons (row : Row) (rows : List Row) :
    kind.among (row :: rows) =
      kind.among rows + if kind.holds row.dtype then 1 else 0 := List.countP_cons

theorem isExt3_of_not_isVfat {type : Nat} (ext3 : isExt3 type = true) : isVfat type = false := by
  obtain rfl : type = 0x83 := of_decide_eq_true ext3
  rfl

theorem text_kind (c : Counters) {type : Nat} (holds : kind.holds type = true) :
    text c type = kind.text (kind.counter c) := by
  cases kind with
  | vfat => exact if_pos holds
  | ext3 =>
    have other : ¬ isVfat type = true := by
      rw [isExt3_of_not_isVfat holds]
      exact Bool.false_ne_true
    rw [text, if_neg other]
    exact if_pos holds

theorem text_plain (c d : Counters) {type : Nat} (none : ∀ kind : Kind, kind.holds type = false) :
    text c type = text d type := by
  have vfat : isVfat type = false := none .vfat
  have ext3 : isExt3 type = false := none .ext3
  rw [text, text, vfat, ext3]
  rfl

theorem counter_next (c : Counters) (type : Nat) :
    kind.counter (c.next type) =
      if kind.holds type then min kind.limit (kind.counter c + 1) else kind.counter c := by
  cases vfat : isVfat type with
  | true =>
    have ext3 : isExt3 type = false := by
      cases same : isExt3 type with
      | false => rfl
      | true => rw [isExt3_of_not_isVfat same] at vfat; cases vfat
    cases kind <;> simp [Counters.next, Kind.counter, Kind.holds, Kind.limit, vfat, ext3]
  | false =>
    cases ext3 : isExt3 type <;> cases kind <;>
      simp [Counters.next, Kind.counter, Kind.holds, Kind.limit, vfat, ext3]

theorem counter_next_le {kind : Kind} {c : Counters} (lawful : kind.counter c ≤ kind.limit)
    (type : Nat) : kind.counter (c.next type) ≤ kind.limit := by
  rw [counter_next]
  split_ifs <;> omega

theorem kind_text_none : kind.text kind.limit = none := by
  cases kind <;> rfl

theorem kind_text_some {n : Nat} (inside : n < kind.limit) :
    ∃ name, kind.text n = some name ∧ 2 ≤ name.length := by
  have listed : ∀ n, n < kind.limit → (kind.text n).any (fun name => 2 ≤ name.length) = true := by
    cases kind with
    | ext3 | vfat => decide
  obtain ⟨name, found, long⟩ := (Option.any_eq_true _ _).mp (listed n inside)
  exact ⟨name, found, of_decide_eq_true long⟩

theorem kind_text_apart {m n : Nat} (below : m < n) (inside : n < kind.limit) :
    (kind.text m).map (List.take 2) ≠ (kind.text n).map (List.take 2) := by
  have listed : ∀ n, n < kind.limit → ∀ m, m < n →
      (kind.text m).map (List.take 2) ≠ (kind.text n).map (List.take 2) := by
    cases kind with
    | ext3 | vfat => decide
  exact listed n inside m below

end Kinds

section Twice

variable {rows : List Row}

theorem counter_after (kind : Kind) (rows : List Row) (c : Counters)
    (lawful : kind.counter c ≤ kind.limit) :
    kind.counter (c.after rows) = min kind.limit (kind.counter c + kind.among rows) := by
  induction rows generalizing c with
  | nil => exact (Nat.min_eq_right lawful).symm
  | cons row rows ih =>
    have step := counter_next kind c row.dtype
    have rest : c.after (row :: rows) = (c.next row.dtype).after rows := rfl
    rw [rest, ih _ (counter_next_le lawful _), step, Kind.among_cons]
    split <;> omega

def Kind.Done (kind : Kind) (c : Counters) (rows : List Row) : Prop :=
  kind.among rows = 0 ∨ kind.limit ≤ kind.counter c

theorem texts_done (rows : List Row) (c d : Counters)
    (range : ∀ kind : Kind, kind.counter d ≤ kind.limit) (done : ∀ kind : Kind, kind.Done d rows)
    {j : Nat} {s : Option (List UInt8)} (copied : (texts d rows)[j]? = some s) : s = none ∨ (texts c rows)[j]? = some s := by
  induction rows generalizing c d j with
  | nil => cases copied
  | cons row rows ih =>
    cases j with
    | zero =>
      have head : text d row.dtype = s := Option.some.inj copied
      by_cases counted : ∃ kind : Kind, kind.holds row.dtype = true
      · obtain ⟨kind, holds⟩ := counted
        have full : kind.counter d = kind.limit := by
          refine Nat.le_antisymm (range kind) ((done kind).resolve_left ?_)
          rw [Kind.among_cons, if_pos holds]
          omega
        left
        rw [← head, text_kind kind d holds, full, kind_text_none]
      · right
        rw [← head]
        refine congrArg some (text_plain c d fun kind => ?_)
        exact Bool.eq_false_of_not_eq_true fun holds => counted ⟨kind, holds⟩
    | succ j =>
      refine ih (c.next row.dtype) (d.next row.dtype) (fun kind => counter_next_le (range kind) _)
        (fun kind => ?_) copied
      refine (done kind).imp (fun zero => ?_) fun full => ?_
      · rw [Kind.among_cons] at zero
        omega
      · rw [counter_next]
        split <;> omega

theorem first_text (kind : Kind) (rows : List Row) (some_ : 0 < kind.among rows) :
    ∃ (j : Nat) (row : Row), rows[j]? = some row ∧
      ∀ c : Counters, (texts c rows)[j]? = some (kind.text (kind.counter c)) := by
  induction rows with
  | nil => cases some_
  | cons row rows ih =>
    by_cases holds : kind.holds row.dtype = true
    · refine ⟨0, row, rfl, fun c => ?_⟩
      exact congrArg some (text_kind kind c holds)
    · rw [Kind.among_cons, if_neg holds] at some_
      obtain ⟨j, other, found, copied⟩ := ih some_
      refine ⟨j + 1, other, found, fun c => ?_⟩
      have rest := copied (c.next row.dtype)
      rw [counter_next, if_neg holds] at rest
      exact rest

theorem texts_length (rows : List Row) (c : Counters) : (texts c rows).length = rows.length := by
  induction rows generalizing c with
  | nil => rfl
  | cons row rows ih => rw [texts, List.length_cons, List.length_cons, ih]

theorem inRange_iff (c : Counters) : c.InRange ↔ ∀ kind : Kind, kind.counter c ≤ kind.limit := by
  constructor
  · rintro ⟨ext3, vfat⟩ kind
    cases kind with
    | ext3 => exact ext3
    | vfat => exact vfat
  · intro all
    exact ⟨all .ext3, all .vfat⟩

theorem fill_again (row : Row) (entry : Entry) {one two : Option (List UInt8)}
    (again : two = none ∨ two = one) : fill row two (fill row one entry) = fill row one entry := by
  rcases again with rfl | rfl
  · rfl
  · cases two with
    | none => rfl
    | some name =>
      simp [fill]

theorem fill_apart (row : Row) (entry : Entry) {one two : List UInt8} (long : 2 ≤ one.length)
    (long' : 2 ≤ two.length) (apart : one.take 2 ≠ two.take 2) :
    fill row (some two) (fill row (some one) entry) ≠ fill row (some one) entry := by
  intro same
  have names := congrArg (fun entry : Entry => entry.name.take 2) same
  simp only [fill] at names
  rw [List.take_append_of_le_length long', List.take_append_of_le_length long] at names
  exact apart names.symm

theorem addRows_twice_iff {t u : Table} (start : t.count = 0) (lawful : (countersOf t).InRange)
    (rows : List Row) (entries : u.entries = (addRows t rows).entries) (restart : u.count = 0)
    (taken : countersOf u = countersOf (addRows t rows)) :
    (addRows u rows).entries = (addRows t rows).entries ↔
      ∀ kind : Kind, kind.Done ((countersOf t).after rows) rows := by
  obtain ⟨counters, -, behind, here⟩ := addRows_entries rows t lawful
  have range : ∀ kind : Kind, kind.counter ((countersOf t).after rows) ≤ kind.limit := by
    intro kind
    rw [counter_after kind rows _ ((inRange_iff _).mp lawful kind)]
    exact Nat.min_le_left _ _
  have counters' : countersOf u = (countersOf t).after rows := taken.trans counters
  have lawful' : (countersOf u).InRange := by
    rw [counters', inRange_iff]
    exact range
  obtain ⟨-, -, behind', here'⟩ := addRows_entries rows u lawful'
  rw [counters', restart, entries] at here'
  rw [restart, entries] at behind'
  rw [start] at here
  simp only [Nat.zero_add] at here here' behind'
  constructor
  · intro same kind
    by_contra undone
    rw [Kind.Done, not_or, Nat.not_le] at undone
    obtain ⟨asked, left⟩ := undone
    have counted := counter_after kind rows _ ((inRange_iff _).mp lawful kind)
    have earlier : kind.counter (countersOf t) < kind.counter ((countersOf t).after rows) := by
      omega
    obtain ⟨j, row, found, copied⟩ := first_text kind rows (Nat.pos_of_ne_zero asked)
    obtain ⟨one, first, long⟩ := kind_text_some kind (Nat.lt_trans earlier left)
    obtain ⟨two, second, long'⟩ := kind_text_some kind left
    have apart := kind_text_apart kind earlier left
    rw [first, second] at apart
    refine fill_apart row (t.entries j) long long' (fun equal => apart ?_) ?_
    · rw [Option.map_some, Option.map_some, equal]
    · have filled := here j row _ found (copied _)
      have again := here' j row _ found (copied _)
      rw [first] at filled
      rw [second, filled] at again
      rw [← again, ← filled]
      exact congrFun same j
  · intro done
    funext n
    by_cases inside : n < rows.length
    · have found : rows[n]? = some rows[n] := List.getElem?_eq_getElem inside
      obtain ⟨one, first⟩ : ∃ one, (texts (countersOf t) rows)[n]? = some one :=
        ⟨_, List.getElem?_eq_getElem ((texts_length rows _).symm ▸ inside)⟩
      obtain ⟨two, second⟩ : ∃ two, (texts ((countersOf t).after rows) rows)[n]? = some two :=
        ⟨_, List.getElem?_eq_getElem ((texts_length rows _).symm ▸ inside)⟩
      have again : two = none ∨ two = one := by
        refine (texts_done rows (countersOf t) _ range done second).imp id fun same => ?_
        rw [first] at same
        exact (Option.some.inj same).symm
      have filled := here n _ _ found first
      rw [here' n _ _ found second, filled, fill_again _ _ again]
    · exact behind' n (Nat.not_lt.mp inside)

end Twice

/-- `partition_get_index`; `none` is `INVALID_PTN`. -/
def partitionGetIndex (t : Table) (name : List UInt8) : Option Nat :=
  if numPartitions ≤ t.count then none
  else (List.range t.count).find? fun n =>
    (t.entries n).name.take name.length = name &&
      ((t.entries n).name.takeWhile (· ≠ 0)).length = name.length

/-- Everything that the rest of the bootloader sees of a table. -/
structure SameTable (one two : Table) : Prop where
  entries : two.entries = one.entries
  count : two.count = one.count
  gpt : two.gpt = one.gpt
  index : ∀ name, partitionGetIndex two name = partitionGetIndex one name

def partitions (content : Nat → UInt8) : List Row :=
  if signed (blockAt content 0) then (mbrRows content).1 else []

/-- After the first read, with the counters as they were before it, no name is left over for the
partitions of a kind: there is none of the kind, or the list is used up. -/
def NamesUsedUp (content : Nat → UInt8) (t : Table) : Prop :=
  ∀ kind : Kind, kind.among (partitions content) = 0 ∨
    kind.limit ≤ kind.counter (countersOf t) + kind.among (partitions content)

theorem reload_entries_iff (content : Nat → UInt8) (t : Table)
    (lawful : (countersOf t).InRange) :
    (reload content (reload content t)).entries = (reload content t).entries ↔
      NamesUsedUp content t := by
  have used : NamesUsedUp content t ↔
      ∀ kind : Kind, kind.Done ((countersOf t).after (partitions content)) (partitions content) := by
    refine forall_congr' fun kind => or_congr Iff.rfl ?_
    rw [counter_after kind _ _ ((inRange_iff _).mp lawful kind)]
    omega
  rw [used]
  unfold reload partitions
  cases signed (blockAt content 0) with
  | false =>
    refine ⟨fun _ kind => Or.inl rfl, fun _ => rfl⟩
  | true =>
    simp only [if_true]
    generalize (mbrRows content).1 = rows
    generalize (mbrRows content).2 = protective
    cases protective with
    | false | true => exact addRows_twice_iff (t := { t with count := 0 }) rfl lawful rows rfl rfl rfl

theorem reload_count_gpt (content : Nat → UInt8) (t : Table) :
    (reload content (reload content t)).count = (reload content t).count ∧
      (reload content (reload content t)).gpt = (reload content t).gpt := by
  unfold reload
  dsimp only
  cases signed (blockAt content 0) with
  | false => exact ⟨rfl, rfl⟩
  | true =>
    cases (mbrRows content).2 with
    | false =>
      simp [addRows_count, addRows_gpt]
    | true => simp [addRows_count]

/-- For every card whose transfers succeed and every state of the parser: a second read leaves
the table as it is just if the first one has used up the names that the card's partitions ask
for. -/
theorem reread_same_iff (card : Card) (sure : card.Reliable) (stack stack' : Nat → UInt8)
    (t : Table) (lawful : (countersOf t).InRange) :
    let first := mmcBootReadMbr stack card t
    let second := mmcBootReadMbr stack' first.2.1 first.2.2
    SameTable first.2.2 second.2.2 ↔ NamesUsedUp card.content t := by
  obtain ⟨card', ran, sure', kept⟩ := mmcBootReadMbr_eq sure stack t
  obtain ⟨card'', ran', -, -⟩ := mmcBootReadMbr_eq sure' stack' (reload card.content t)
  dsimp only
  rw [ran, ran', kept, ← reload_entries_iff card.content t lawful]
  obtain ⟨count, gpt⟩ := reload_count_gpt card.content t
  refine ⟨SameTable.entries, fun entries => ⟨entries, count, gpt, fun name => ?_⟩⟩
  simp [partitionGetIndex, entries, count]

def bootTable : Table := ⟨fun _ => ⟨[], 0, [], 0, 0, 0, 0, []⟩, 0, false, 0, 0⟩

def cardOf (one two : Nat) : Card := ⟨true, table 0 one 1 1 two 9, []⟩

theorem system_becomes_userdata :
    let first := mmcBootReadMbr (fun _ => 0) (cardOf 0x83 0) bootTable
    let second := mmcBootReadMbr (fun _ => 0) first.2.1 first.2.2
    (partitionGetIndex first.2.2 (ascii "system") = some 0 ∧
      partitionGetIndex second.2.2 (ascii "system") = none ∧
      partitionGetIndex second.2.2 (ascii "userdata") = some 0) ∧
      ¬ SameTable first.2.2 second.2.2 := by
  dsimp only
  generalize one : mmcBootReadMbr (fun _ => 0) (cardOf 0x83 0) bootTable = first
  generalize two : mmcBootReadMbr (fun _ => 0) first.2.1 first.2.2 = second
  have before : partitionGetIndex first.2.2 (ascii "system") = some 0 := by
    rw [← one]
    decide +kernel
  have after : partitionGetIndex second.2.2 (ascii "system") = none ∧
      partitionGetIndex second.2.2 (ascii "userdata") = some 0 := by
    rw [← two, ← one]
    decide +kernel
  refine ⟨⟨before, after⟩, fun same => ?_⟩
  rw [same.index, before] at after
  cases after.1

theorem reread_same_two_modems :
    let first := mmcBootReadMbr (fun _ => 0) (cardOf 0x06 0x0C) bootTable
    let second := mmcBootReadMbr (fun _ => 0) first.2.1 first.2.2
    SameTable first.2.2 second.2.2 := by
  refine (reread_same_iff (cardOf 0x06 0x0C) ?_ (fun _ => 0) (fun _ => 0) bootTable
    ⟨by decide, by decide⟩).mpr ?_
  · simp [Card.Reliable, cardOf]
  · intro kind
    cases kind with
    | ext3 => exact Or.inl (by decide +kernel)
    | vfat => exact Or.inr (by decide +kernel)

section Lookup

def storedName (entry : Entry) : List UInt8 := entry.name.takeWhile (· ≠ 0)

def firstNamed (t : Table) (name : List UInt8) : Option Nat :=
  (List.range t.count).find? fun n => storedName (t.entries n) = name

theorem sameName_iff (entry : Entry) (name : List UInt8) :
    (entry.name.take name.length = name && (entry.name.takeWhile (· ≠ 0)).length = name.length) =
      decide (storedName entry = name) := by
  have front : entry.name.take (storedName entry).length = storedName entry :=
    (List.prefix_iff_eq_take.mp (List.takeWhile_prefix _)).symm
  rw [Bool.eq_iff_iff, Bool.and_eq_true, decide_eq_true_eq, decide_eq_true_eq, decide_eq_true_eq]
  constructor
  · rintro ⟨same, length⟩
    rw [← front, storedName, length, same]
  · rintro rfl
    exact ⟨front, rfl⟩

/-- Every name is found where it is stored first just if the table is not full. -/
theorem lookup_finds_iff (t : Table) :
    (∀ name, partitionGetIndex t name = firstNamed t name) ↔ t.count < numPartitions := by
  have found (name : List UInt8) : partitionGetIndex t name =
      if numPartitions ≤ t.count then none else firstNamed t name := by
    simp only [partitionGetIndex, firstNamed, sameName_iff]
  constructor
  · intro finds
    by_contra full
    have none_ := finds (storedName (t.entries 0))
    rw [found, if_pos (Nat.not_lt.mp full)] at none_
    have first := List.find?_eq_none.mp none_.symm 0
      (List.mem_range.mpr (Nat.lt_of_lt_of_le (by decide) (Nat.not_lt.mp full)))
    simp at first
  · intro room name
    rw [found, if_neg (Nat.not_le.mpr room)]

def letter (b : UInt8) : Char := Char.ofNat b.toNat

theorem letter_injective : Function.Injective letter := by
  intro a b same
  have value (c : UInt8) : (letter c).toNat = c.toNat := by
    have small : c.toNat < 256 := c.toNat_lt
    rw [letter, Char.ofNat, dif_pos (Or.inl (by omega))]
    rfl
  rw [← UInt8.toNat_inj, ← value a, ← value b, same]

def listed (t : Table) : List PartitionEntry :=
  (List.range t.count).map fun n =>
    ⟨(storedName (t.entries n)).map letter, (t.entries n).firstLba, (t.entries n).size⟩

/-- A name has the same index in the table and in the list that the commands look it up in. -/
theorem partitionGetIndex_listed (t : Table) (name : List UInt8) :
    Mmc.partitionGetIndex (listed t) (name.map letter) = partitionGetIndex t name := by
  have position (p : Nat → Bool) : (List.range t.count).findIdx? p = (List.range t.count).find? p := by
    ext n
    rw [List.find?_range_eq_some, List.findIdx?_eq_some_iff_getElem]
    simp
  rw [Mmc.partitionGetIndex, partitionGetIndex, listed, List.length_map, List.length_range]
  simp only [List.findIdx?_map, sameName_iff, position, Function.comp_def,
    (List.map_injective_iff.mpr letter_injective).eq_iff]

def endlessCard : Card := ⟨true, fun a => table 1 0x48 1 3 0x05 0 (a % blockSize), []⟩

theorem boot_not_found_in_full :
    (mmcBootReadMbr (fun _ => 0) endlessCard bootTable).2.2.count = numPartitions ∧
      firstNamed (mmcBootReadMbr (fun _ => 0) endlessCard bootTable).2.2 (ascii "boot") = some 1 ∧
      partitionGetIndex (mmcBootReadMbr (fun _ => 0) endlessCard bootTable).2.2 (ascii "boot") =
        none := by
  decide +kernel

end Lookup

end AndroidBoot.Platform.MbrReread
