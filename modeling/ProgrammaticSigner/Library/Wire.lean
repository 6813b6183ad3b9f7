import Mathlib

set_option autoImplicit false

/- Self-delimiting byte formats. A format carries its own proof that reading
undoes writing whatever follows, and that nothing else reads back as the value. -/

/-- A byte format for the values that fit it. Reading returns the unread rest. -/
structure Wire (α : Type) where
  encode : α → List UInt8
  decode : List UInt8 → Option (α × List UInt8)
  Fits : α → Prop
  decode_encode : ∀ value, Fits value → ∀ rest,
    decode (encode value ++ rest) = some (value, rest)
  decode_inv : ∀ bytes value rest, decode bytes = some (value, rest) →
    Fits value ∧ bytes = encode value ++ rest

namespace Wire

variable {α β : Type}

/-- Read a whole buffer, rejecting missing and trailing bytes. -/
def deserializeExact (wire : Wire α) (bytes : List UInt8) : Option α :=
  match wire.decode bytes with
  | some (value, []) => some value
  | _ => none

/-- The exact reader accepts precisely the encodings of fitting values. -/
theorem deserializeExact_iff (wire : Wire α) (bytes : List UInt8) (value : α) :
    wire.deserializeExact bytes = some value ↔ wire.Fits value ∧ bytes = wire.encode value := by
  constructor
  · intro accepted
    unfold deserializeExact at accepted
    split at accepted
    · rename_i read decoded
      obtain rfl := Option.some.inj accepted
      simpa only [List.append_nil] using wire.decode_inv bytes read [] decoded
    · cases accepted
  · rintro ⟨fits, rfl⟩
    have decoded := wire.decode_encode value fits []
    rw [List.append_nil] at decoded
    simp only [deserializeExact, decoded]

theorem deserializeExact_encode (wire : Wire α) {value : α} (fits : wire.Fits value) :
    wire.deserializeExact (wire.encode value) = some value :=
  (wire.deserializeExact_iff _ value).mpr ⟨fits, rfl⟩

theorem deserializeExact_none {wire : Wire α} {bytes : List UInt8}
    (bad : wire.decode bytes = none) : wire.deserializeExact bytes = none := by
  rw [deserializeExact, bad]

/-- Equal buffers that start with two encodings start with the same value. -/
theorem encode_append_inj (wire : Wire α) {first second : α} {left right : List UInt8}
    (one : wire.Fits first) (two : wire.Fits second)
    (same : wire.encode first ++ left = wire.encode second ++ right) :
    first = second ∧ left = right := by
  have read := wire.decode_encode first one left
  rw [same, wire.decode_encode second two right] at read
  exact ⟨(Prod.mk.inj (Option.some.inj read)).1.symm, (Prod.mk.inj (Option.some.inj read)).2.symm⟩

theorem encode_inj (wire : Wire α) {first second : α}
    (one : wire.Fits first) (two : wire.Fits second)
    (same : wire.encode first = wire.encode second) : first = second := by
  have extended : wire.encode first ++ [] = wire.encode second ++ [] := by rw [same]
  exact (wire.encode_append_inj one two extended).1

/-- A value serializes to some bytes. -/
def Serializes (wire : Wire α) (value : α) (bytes : List UInt8) : Prop :=
  wire.Fits value ∧ bytes = wire.encode value

/-- A reader of whole buffers takes the one encoding of each value that serializes, and nothing
before or after it. -/
structure ReadExactly {Error : Type} (wire : Wire α) (read : List UInt8 → Except Error α) :
    Prop where
  accepts : ∀ bytes value, read bytes = .ok value ↔ wire.Serializes value bytes
  unique : ∀ first second value, read first = .ok value → read second = .ok value →
    first = second
  whole : ∀ bytes extra value other, read bytes = .ok value → read (bytes ++ extra) = .ok other →
    extra = [] ∧ other = value

theorem readExactly_of_accepts {Error : Type} {wire : Wire α}
    {read : List UInt8 → Except Error α}
    (accepts : ∀ bytes value, read bytes = .ok value ↔ wire.Serializes value bytes) :
    wire.ReadExactly read := by
  refine ⟨accepts, ?_, ?_⟩
  · intro first second value one two
    exact ((accepts first value).mp one).2.trans ((accepts second value).mp two).2.symm
  · intro bytes extra value other one two
    obtain ⟨fits, rfl⟩ := (accepts bytes value).mp one
    obtain ⟨fits', same⟩ := (accepts _ other).mp two
    have split : wire.encode value ++ extra = wire.encode other ++ [] := by
      rw [same, List.append_nil]
    obtain ⟨equal, rest⟩ := wire.encode_append_inj fits fits' split
    exact ⟨rest, equal.symm⟩

/-- A format that writes every value of its type. -/
def Total (wire : Wire α) : Prop := ∀ value, wire.Fits value

/-- One byte. -/
def byte : Wire UInt8 where
  encode value := [value]
  decode
    | [] => none
    | value :: rest => some (value, rest)
  Fits _ := True
  decode_encode _ _ _ := rfl
  decode_inv bytes value rest decoded := by
    cases bytes with
    | nil => cases decoded
    | cons first others =>
        cases decoded
        exact ⟨trivial, rfl⟩

theorem byte_total : byte.Total := fun _ => trivial

/-- Two values back to back. -/
def pair (left : Wire α) (right : Wire β) : Wire (α × β) where
  encode value := left.encode value.1 ++ right.encode value.2
  decode bytes :=
    match left.decode bytes with
    | none => none
    | some (first, others) =>
        match right.decode others with
        | none => none
        | some (second, rest) => some ((first, second), rest)
  Fits value := left.Fits value.1 ∧ right.Fits value.2
  decode_encode value fits rest := by
    rw [List.append_assoc]
    simp only [left.decode_encode value.1 fits.1, right.decode_encode value.2 fits.2]
  decode_inv bytes value rest decoded := by
    split at decoded
    · cases decoded
    · rename_i first others one
      split at decoded
      · cases decoded
      · rename_i second unread two
        cases decoded
        obtain ⟨fitsLeft, rfl⟩ := left.decode_inv _ _ _ one
        obtain ⟨fitsRight, rfl⟩ := right.decode_inv _ _ _ two
        exact ⟨⟨fitsLeft, fitsRight⟩, (List.append_assoc _ _ _).symm⟩

theorem pair_total {left : Wire α} {right : Wire β} (one : left.Total) (two : right.Total) :
    (pair left right).Total := fun value => ⟨one value.1, two value.2⟩

/-- The same bytes read as another presentation of the values that fit. -/
def iso (wire : Wire α) (make : α → β) (view : β → α)
    (make_view : ∀ value, make (view value) = value)
    (view_make : ∀ value, wire.Fits value → view (make value) = value) : Wire β where
  encode value := wire.encode (view value)
  decode bytes := (wire.decode bytes).map fun read => (make read.1, read.2)
  Fits value := wire.Fits (view value)
  decode_encode value fits rest := by
    rw [wire.decode_encode (view value) fits, Option.map_some, make_view]
  decode_inv bytes value rest decoded := by
    obtain ⟨read, found, same⟩ := Option.map_eq_some_iff.mp decoded
    obtain ⟨rfl, rfl⟩ := Prod.mk.inj same
    obtain ⟨fits, exact⟩ := wire.decode_inv bytes read.1 read.2 found
    rw [view_make read.1 fits]
    exact ⟨fits, exact⟩

theorem iso_total {wire : Wire α} {make : α → β} {view : β → α}
    {make_view : ∀ value, make (view value) = value}
    {view_make : ∀ value, wire.Fits value → view (make value) = value} (total : wire.Total) :
    (iso wire make view make_view view_make).Total := fun value => total (view value)

/-- A value behind a fixed tag byte. -/
def tagged (tag : UInt8) (wire : Wire α) : Wire α where
  encode value := tag :: wire.encode value
  decode
    | [] => none
    | first :: bytes => if first = tag then wire.decode bytes else none
  Fits := wire.Fits
  decode_encode value fits rest := by
    rw [List.cons_append]
    simp only [if_true, wire.decode_encode value fits]
  decode_inv bytes value rest decoded := by
    cases bytes with
    | nil => cases decoded
    | cons first bytes =>
        simp only at decoded
        split at decoded
        · rename_i same
          obtain ⟨fits, exact⟩ := wire.decode_inv bytes value rest decoded
          exact ⟨fits, by rw [same, exact, List.cons_append]⟩
        · cases decoded

theorem tagged_unknown (wire : Wire α) {expected tag : UInt8} (unknown : tag ≠ expected)
    (rest : List UInt8) : (wire.tagged expected).decode (tag :: rest) = none := by
  simp only [tagged, if_neg unknown]

/-- An optional value behind a tag byte, any other tag being rejected. -/
def option (wire : Wire α) : Wire (Option α) where
  encode
    | none => [0]
    | some value => 1 :: wire.encode value
  decode
    | [] => none
    | tag :: bytes =>
        if tag = 0 then some (none, bytes)
        else if tag = 1 then (wire.decode bytes).map fun read => (some read.1, read.2)
        else none
  Fits value := ∀ inner, value = some inner → wire.Fits inner
  decode_encode value fits rest := by
    cases value with
    | none => rfl
    | some inner => simp [wire.decode_encode inner (fits inner rfl)]
  decode_inv bytes value rest decoded := by
    cases bytes with
    | nil => cases decoded
    | cons tag bytes =>
        simp only at decoded
        split at decoded
        · rename_i absent
          obtain ⟨rfl, rfl⟩ := Prod.mk.inj (Option.some.inj decoded)
          refine ⟨fun inner impossible => ?_, ?_⟩
          · cases impossible
          · rw [absent, List.singleton_append]
        · split at decoded
          · rename_i present
            obtain ⟨read, found, same⟩ := Option.map_eq_some_iff.mp decoded
            obtain ⟨rfl, rfl⟩ := Prod.mk.inj same
            obtain ⟨fits, exact⟩ := wire.decode_inv bytes read.1 read.2 found
            refine ⟨fun inner equal => Option.some.inj equal ▸ fits, ?_⟩
            rw [present, exact, List.cons_append]
          · cases decoded

theorem option_unknown (wire : Wire α) {tag : UInt8} (zero : tag ≠ 0) (one : tag ≠ 1)
    (rest : List UInt8) : wire.option.decode (tag :: rest) = none := by
  simp only [option, if_neg zero, if_neg one]

theorem option_total {wire : Wire α} (total : wire.Total) : (option wire).Total :=
  fun _ inner _ => total inner

/-- One of two values behind a tag byte. -/
def sum (left : Wire α) (right : Wire β) : Wire (α ⊕ β) where
  encode
    | .inl value => 0 :: left.encode value
    | .inr value => 1 :: right.encode value
  decode
    | [] => none
    | tag :: bytes =>
        if tag = 0 then (left.decode bytes).map fun read => (.inl read.1, read.2)
        else if tag = 1 then (right.decode bytes).map fun read => (.inr read.1, read.2)
        else none
  Fits
    | .inl value => left.Fits value
    | .inr value => right.Fits value
  decode_encode value fits rest := by
    cases value with
    | inl value => simp [left.decode_encode value fits]
    | inr value => simp [right.decode_encode value fits]
  decode_inv bytes value rest decoded := by
    cases bytes with
    | nil => cases decoded
    | cons tag bytes =>
        simp only at decoded
        split at decoded
        · rename_i first
          obtain ⟨read, found, same⟩ := Option.map_eq_some_iff.mp decoded
          obtain ⟨rfl, rfl⟩ := Prod.mk.inj same
          obtain ⟨fits, exact⟩ := left.decode_inv bytes read.1 read.2 found
          exact ⟨fits, by rw [first, exact, List.cons_append]⟩
        · split at decoded
          · rename_i second
            obtain ⟨read, found, same⟩ := Option.map_eq_some_iff.mp decoded
            obtain ⟨rfl, rfl⟩ := Prod.mk.inj same
            obtain ⟨fits, exact⟩ := right.decode_inv bytes read.1 read.2 found
            exact ⟨fits, by rw [second, exact, List.cons_append]⟩
          · cases decoded

theorem sum_total {left : Wire α} {right : Wire β} (one : left.Total) (two : right.Total) :
    (sum left right).Total := by
  rintro (value | value)
  · exact one value
  · exact two value

/-- Read a counted run of items. -/
def decodeMany (wire : Wire α) : Nat → List UInt8 → Option (List α × List UInt8)
  | 0, bytes => some ([], bytes)
  | count + 1, bytes =>
      match wire.decode bytes with
      | none => none
      | some (first, others) =>
          match decodeMany wire count others with
          | none => none
          | some (items, rest) => some (first :: items, rest)

theorem decodeMany_encode (wire : Wire α) (items : List α) (fits : ∀ item ∈ items, wire.Fits item)
    (rest : List UInt8) :
    wire.decodeMany items.length (items.flatMap wire.encode ++ rest) = some (items, rest) := by
  induction items with
  | nil => rfl
  | cons first others ih =>
      have head := wire.decode_encode first (fits first List.mem_cons_self)
      have tail := ih fun item member => fits item (List.mem_cons_of_mem first member)
      simp only [List.flatMap_cons, List.append_assoc, List.length_cons, decodeMany, head, tail]

theorem decodeMany_inv (wire : Wire α) (count : Nat) (bytes : List UInt8) (items : List α)
    (rest : List UInt8) (decoded : wire.decodeMany count bytes = some (items, rest)) :
    items.length = count ∧ (∀ item ∈ items, wire.Fits item) ∧
      bytes = items.flatMap wire.encode ++ rest := by
  induction count generalizing bytes items rest with
  | zero =>
      cases decoded
      exact ⟨rfl, by simp, rfl⟩
  | succ count ih =>
      simp only [decodeMany] at decoded
      split at decoded
      · cases decoded
      · rename_i first others one
        split at decoded
        · cases decoded
        · rename_i found unread two
          obtain ⟨rfl, rfl⟩ := Prod.mk.inj (Option.some.inj decoded)
          obtain ⟨fitsFirst, rfl⟩ := wire.decode_inv _ _ _ one
          obtain ⟨length, fitsOthers, rfl⟩ := ih others found unread two
          refine ⟨by rw [List.length_cons, length], ?_, ?_⟩
          · intro item member
            rcases List.mem_cons.mp member with rfl | member
            · exact fitsFirst
            · exact fitsOthers item member
          · rw [List.flatMap_cons, List.append_assoc]

/-- Reading stops at the first item that cannot be read. -/
theorem decodeMany_none (wire : Wire α) {before : List α}
    (fits : ∀ item ∈ before, wire.Fits item) {count : Nat} (more : before.length < count)
    {rest : List UInt8} (bad : wire.decode rest = none) :
    wire.decodeMany count (before.flatMap wire.encode ++ rest) = none := by
  induction before generalizing count with
  | nil =>
      obtain ⟨count, rfl⟩ := Nat.exists_eq_succ_of_ne_zero (Nat.ne_of_gt more)
      simp only [List.flatMap_nil, List.nil_append, decodeMany, bad]
  | cons first others ih =>
      obtain ⟨count, rfl⟩ := Nat.exists_eq_succ_of_ne_zero (Nat.ne_of_gt (Nat.zero_lt_of_lt more))
      have head := wire.decode_encode first (fits first List.mem_cons_self)
      have tail := ih (fun item member => fits item (List.mem_cons_of_mem first member))
        (Nat.lt_of_succ_lt_succ more)
      simp only [List.flatMap_cons, List.append_assoc, decodeMany, head, tail]

/-- The low bytes of a number, least significant first. -/
def leBytes : Nat → Nat → List UInt8
  | 0, _ => []
  | width + 1, value => UInt8.ofNat value :: leBytes width (value / 256)

def leValue : List UInt8 → Nat
  | [] => 0
  | first :: rest => first.toNat + 256 * leValue rest

theorem leBytes_length (width value : Nat) : (leBytes width value).length = width := by
  induction width generalizing value with
  | zero => rfl
  | succ width ih => simp only [leBytes, List.length_cons, ih]

theorem leValue_leBytes (width value : Nat) (bound : value < 256 ^ width) :
    leValue (leBytes width value) = value := by
  induction width generalizing value with
  | zero =>
      rw [Nat.pow_zero] at bound
      simp only [leBytes, leValue]
      omega
  | succ width ih =>
      rw [Nat.pow_succ] at bound
      have digit : (UInt8.ofNat value).toNat = value % 256 := UInt8.toNat_ofNat'
      simp only [leBytes, leValue, digit, ih (value / 256) (by omega)]
      omega

theorem leBytes_leValue (bytes : List UInt8) : leBytes bytes.length (leValue bytes) = bytes := by
  induction bytes with
  | nil => rfl
  | cons first rest ih =>
      have small := first.toNat_lt
      have quotient : (first.toNat + 256 * leValue rest) / 256 = leValue rest := by omega
      have digit : UInt8.ofNat (first.toNat + 256 * leValue rest) = first := by
        apply UInt8.toNat_inj.mp
        rw [UInt8.toNat_ofNat']
        omega
      rw [List.length_cons, leValue, leBytes, quotient, digit, ih]

theorem leValue_lt (bytes : List UInt8) : leValue bytes < 256 ^ bytes.length := by
  induction bytes with
  | nil => exact Nat.one_pos
  | cons first rest ih =>
      have small := first.toNat_lt
      rw [List.length_cons, Nat.pow_succ, leValue]
      omega

/-- A little-endian number of some width in bytes. -/
def le (width : Nat) : Wire Nat where
  encode := leBytes width
  decode bytes :=
    if width ≤ bytes.length then some (leValue (bytes.take width), bytes.drop width) else none
  Fits value := value < 256 ^ width
  decode_encode value bound rest := by
    have length := leBytes_length width value
    have long : width ≤ (leBytes width value ++ rest).length := by
      rw [List.length_append, length]
      omega
    rw [if_pos long, List.take_left' length, List.drop_left' length,
      leValue_leBytes width value bound]
  decode_inv bytes value rest decoded := by
    split at decoded
    · rename_i long
      obtain ⟨rfl, rfl⟩ := Prod.mk.inj (Option.some.inj decoded)
      have length : (bytes.take width).length = width := List.length_take_of_le long
      have bound := leValue_lt (bytes.take width)
      have same := leBytes_leValue (bytes.take width)
      rw [length] at bound same
      exact ⟨bound, by rw [same, List.take_append_drop]⟩
    · cases decoded

/-- A little-endian `u64`. -/
def uint64 : Wire UInt64 :=
  (le 8).iso UInt64.ofNat UInt64.toNat (fun _ => UInt64.ofNat_toNat)
    fun _ fits => UInt64.toNat_ofNat_of_lt' fits

theorem uint64_total : uint64.Total := UInt64.toNat_lt

/-- A little-endian `u32`. -/
def uint32 : Wire UInt32 :=
  (le 4).iso UInt32.ofNat UInt32.toNat (fun _ => UInt32.ofNat_toNat)
    fun _ fits => UInt32.toNat_ofNat_of_lt' fits

theorem uint32_total : uint32.Total := UInt32.toNat_lt

/-- Read marks up to the end mark. -/
def decodeTally : List UInt8 → Option (Nat × List UInt8)
  | [] => none
  | mark :: rest =>
      if mark = 0 then some (0, rest)
      else if mark = 1 then (decodeTally rest).map fun read => (read.1 + 1, read.2)
      else none

/-- A number of any size, tallied. -/
def tally : Wire Nat where
  encode value := List.replicate value 1 ++ [0]
  decode := decodeTally
  Fits _ := True
  decode_encode value _ rest := by
    induction value with
    | zero => rfl
    | succ value ih =>
        rw [List.replicate_succ, List.cons_append, List.cons_append, decodeTally, ih]
        rfl
  decode_inv bytes value rest decoded := by
    refine ⟨trivial, ?_⟩
    induction bytes generalizing value with
    | nil => cases decoded
    | cons mark bytes ih =>
        simp only [decodeTally] at decoded
        split at decoded
        · rename_i last
          obtain ⟨rfl, rfl⟩ := Prod.mk.inj (Option.some.inj decoded)
          rw [last]
          rfl
        · split at decoded
          · rename_i more
            obtain ⟨read, found, same⟩ := Option.map_eq_some_iff.mp decoded
            obtain ⟨rfl, rfl⟩ := Prod.mk.inj same
            rw [more, ih read.1 found, List.replicate_succ]
            rfl
          · cases decoded

theorem tally_total : tally.Total := fun _ => trivial

/-- A list behind its count. -/
def list (count : Wire Nat) (wire : Wire α) : Wire (List α) where
  encode items := count.encode items.length ++ items.flatMap wire.encode
  decode bytes :=
    match count.decode bytes with
    | none => none
    | some (length, others) => wire.decodeMany length others
  Fits items := count.Fits items.length ∧ ∀ item ∈ items, wire.Fits item
  decode_encode items fits rest := by
    rw [List.append_assoc]
    simp only [count.decode_encode items.length fits.1, wire.decodeMany_encode items fits.2 rest]
  decode_inv bytes items rest decoded := by
    split at decoded
    · cases decoded
    · rename_i length others one
      obtain ⟨rfl, fits, rfl⟩ := wire.decodeMany_inv length others items rest decoded
      obtain ⟨few, rfl⟩ := count.decode_inv _ _ _ one
      exact ⟨⟨few, fits⟩, (List.append_assoc _ _ _).symm⟩

theorem list_total {count : Wire Nat} {wire : Wire α} (counted : count.Total)
    (total : wire.Total) : (list count wire).Total := fun items =>
  ⟨counted items.length, fun item _ => total item⟩

end Wire
