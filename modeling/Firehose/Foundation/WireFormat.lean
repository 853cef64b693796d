import Firehose.Foundation.Varint

set_option autoImplicit false

/-!
# Messages of tagged fields as bytes

A message is the list of its fields, each with a number and with an integer or a string of
bytes.  A varint has seven bits in each byte, the lowest first, and the high bit set in all
bytes but the last.  A field is its tag, which is a varint, and then its integer as a varint
or the length and the bytes.
-/

namespace Firehose.Foundation

/-! ## Varints -/

/-- The bytes of a number, at most `k + 1` of them. -/
def varintOf : (k n : Nat) → List UInt8
  | 0, n => [UInt8.ofNat n]
  | k + 1, n =>
      if n < 128 then [UInt8.ofNat n] else UInt8.ofNat (n % 128 + 128) :: varintOf k (n / 128)

/-- A number of at most `k + 1` bytes and what follows it. -/
def readVarintOf : Nat → List UInt8 → Option (Nat × List UInt8)
  | _, [] => none
  | 0, byte :: rest => if byte.toNat < 128 then some (byte.toNat, rest) else none
  | k + 1, byte :: rest =>
      if byte.toNat < 128 then some (byte.toNat, rest)
      else (readVarintOf k rest).map fun r => (byte.toNat - 128 + 128 * r.1, r.2)

def varint (word : UInt64) : List UInt8 := varintOf 9 word.toNat

/-- A varint of ten bytes at most; what does not fit into 64 bits is cut off. -/
def readVarint (bytes : List UInt8) : Option (UInt64 × List UInt8) :=
  (readVarintOf 9 bytes).map fun r => (UInt64.ofNat r.1, r.2)

theorem readVarintOf_varintOf {k n : Nat} (hn : n < 128 ^ (k + 1)) (rest : List UInt8) :
    readVarintOf k (varintOf k n ++ rest) = some (n, rest) := by
  induction k generalizing n with
  | zero =>
      have hlt : n < 128 := by simpa using hn
      have hbyte : (UInt8.ofNat n).toNat = n := by
        rw [UInt8.toNat_ofNat']
        omega
      simp only [varintOf, readVarintOf, List.cons_append, List.nil_append, hbyte, hlt, if_true]
  | succ k ih =>
      rcases Nat.lt_or_ge n 128 with hlt | hge
      · have hbyte : (UInt8.ofNat n).toNat = n := by
          rw [UInt8.toNat_ofNat']
          omega
        simp only [varintOf, readVarintOf, List.cons_append, List.nil_append, hbyte, hlt, if_true]
      · have hbyte : (UInt8.ofNat (n % 128 + 128)).toNat = n % 128 + 128 := by
          rw [UInt8.toNat_ofNat']
          omega
        have hquot : n / 128 < 128 ^ (k + 1) := Nat.div_lt_of_lt_mul (by rwa [Nat.mul_comm])
        simp only [varintOf, Nat.not_lt.mpr hge, if_false, List.cons_append, readVarintOf, hbyte,
          ih hquot, Option.map_some]
        rw [if_neg (by omega)]
        simp only [Option.some.injEq, Prod.mk.injEq, and_true]
        omega

theorem toNat_lt_varint (word : UInt64) : word.toNat < 128 ^ (9 + 1) :=
  Nat.lt_of_lt_of_le word.toNat_lt (by decide)

theorem readVarint_varint (word : UInt64) (rest : List UInt8) :
    readVarint (varint word ++ rest) = some (word, rest) := by
  rw [readVarint, varint, readVarintOf_varintOf (toNat_lt_varint word) rest, Option.map_some,
    UInt64.ofNat_toNat]

theorem varint_ne_nil (word : UInt64) : varint word ≠ [] := by
  unfold varint varintOf
  split <;> simp

/-! ## Fields -/

inductive FieldValue
  | word (word : UInt64)
  | bytes (bytes : List UInt8)

structure TaggedField where
  number : Nat
  value : FieldValue

namespace TaggedField

def wireType (f : TaggedField) : Nat :=
  match f.value with
  | .word _ => 0
  | .bytes _ => 2

def tag (f : TaggedField) : UInt64 := UInt64.ofNat (8 * f.number + f.wireType)

/-- The bytes after the tag. -/
def payload (f : TaggedField) : List UInt8 :=
  match f.value with
  | .word word => varint word
  | .bytes bytes => varint (UInt64.ofNat bytes.length) ++ bytes

def encode (f : TaggedField) : List UInt8 := varint f.tag ++ f.payload

/-- The numbers a field may have. -/
def Numbered (f : TaggedField) : Prop := 0 < f.number ∧ f.number < 2 ^ 29

instance (f : TaggedField) : Decidable f.Numbered := inferInstanceAs (Decidable (_ ∧ _))

theorem toNat_tag {f : TaggedField} (h : f.Numbered) : f.tag.toNat = 8 * f.number + f.wireType := by
  have hlt := h.2
  have htype : f.wireType ≤ 2 := by
    unfold wireType
    split <;> omega
  rw [tag, UInt64.toNat_ofNat']
  omega

theorem encode_ne_nil (f : TaggedField) : f.encode ≠ [] := by
  intro h
  exact varint_ne_nil f.tag (List.append_eq_nil_iff.mp h).1

end TaggedField

def encodeFields (fields : List TaggedField) : List UInt8 := fields.flatMap TaggedField.encode

/-- A field and what follows it. -/
def readField (input : List UInt8) : Option (TaggedField × List UInt8) :=
  match readVarint input with
  | none => none
  | some (tag, rest) =>
      if tag.toNat / 8 = 0 then none
      else
        match tag.toNat % 8 with
        | 0 => (readVarint rest).map fun r => (⟨tag.toNat / 8, .word r.1⟩, r.2)
        | 2 =>
            match readVarint rest with
            | none => none
            | some (length, rest) =>
                if length.toNat ≤ rest.length then
                  some (⟨tag.toNat / 8, .bytes (rest.take length.toNat)⟩, rest.drop length.toNat)
                else none
        | _ => none

/-- At most `k` fields, up to the end of the bytes. -/
def readFieldsOf : Nat → List UInt8 → Option (List TaggedField)
  | _, [] => some []
  | 0, _ :: _ => none
  | k + 1, byte :: rest =>
      match readField (byte :: rest) with
      | none => none
      | some (f, rest) => (readFieldsOf k rest).map fun fields => f :: fields

def readFields (bytes : List UInt8) : Option (List TaggedField) := readFieldsOf bytes.length bytes

theorem readField_encode {f : TaggedField} (h : f.Numbered) (hlength : f.encode.length < 2 ^ 64)
    (rest : List UInt8) : readField (f.encode ++ rest) = some (f, rest) := by
  have htag := f.toNat_tag h
  have hpos := h.1
  obtain ⟨number, value⟩ := f
  cases value with
  | word word =>
      have hwhole : TaggedField.encode ⟨number, .word word⟩ ++ rest =
          varint (TaggedField.tag ⟨number, .word word⟩) ++ (varint word ++ rest) := by
        rw [TaggedField.encode, TaggedField.payload, List.append_assoc]
      simp only [TaggedField.wireType] at htag hpos
      have hnumber : (8 * number + 0) / 8 = number := by omega
      have htype : (8 * number + 0) % 8 = 0 := by omega
      rw [hwhole, readField, readVarint_varint]
      simp only [htag, hnumber, htype, readVarint_varint, Option.map_some]
      rw [if_neg (Nat.ne_of_gt hpos)]
  | bytes bytes =>
      have hwhole : TaggedField.encode ⟨number, .bytes bytes⟩ ++ rest =
          varint (TaggedField.tag ⟨number, .bytes bytes⟩) ++
            (varint (UInt64.ofNat bytes.length) ++ (bytes ++ rest)) := by
        rw [TaggedField.encode, TaggedField.payload, List.append_assoc, List.append_assoc]
      have hbytes : (UInt64.ofNat bytes.length).toNat = bytes.length := by
        simp only [TaggedField.encode, TaggedField.payload, List.length_append] at hlength
        rw [UInt64.toNat_ofNat']
        omega
      simp only [TaggedField.wireType] at htag hpos
      have hnumber : (8 * number + 2) / 8 = number := by omega
      have htype : (8 * number + 2) % 8 = 2 := by omega
      rw [hwhole, readField, readVarint_varint]
      simp only [htag, hnumber, htype, readVarint_varint, hbytes]
      rw [if_neg (Nat.ne_of_gt hpos), if_pos (by simp), List.take_left, List.drop_left]

theorem readFieldsOf_encodeFields {k : Nat} {fields : List TaggedField} (hk : fields.length ≤ k)
    (hnumbered : ∀ f ∈ fields, f.Numbered) (hlength : (encodeFields fields).length < 2 ^ 64) :
    readFieldsOf k (encodeFields fields) = some fields := by
  induction fields generalizing k with
  | nil => cases k <;> rfl
  | cons f fields ih =>
      cases k with
      | zero => simp at hk
      | succ k =>
          have hwhole : encodeFields (f :: fields) = f.encode ++ encodeFields fields := rfl
          have hcons : ∃ byte rest, f.encode ++ encodeFields fields = byte :: rest :=
            List.exists_cons_of_ne_nil fun hnil =>
              f.encode_ne_nil (List.append_eq_nil_iff.mp hnil).1
          obtain ⟨byte, rest, hbytes⟩ := hcons
          rw [hwhole, List.length_append] at hlength
          have hone := readField_encode (hnumbered f (by simp)) (by omega) (encodeFields fields)
          have hmore := ih (Nat.le_of_succ_le_succ hk)
            (fun g hg => hnumbered g (List.mem_cons_of_mem f hg)) (by omega)
          rw [hwhole, hbytes, readFieldsOf, ← hbytes, hone]
          simp only [hmore, Option.map_some]

theorem length_le_encodeFields (fields : List TaggedField) :
    fields.length ≤ (encodeFields fields).length := by
  induction fields with
  | nil => exact Nat.le_refl 0
  | cons f fields ih =>
      have hpos : 0 < f.encode.length := List.length_pos_iff.mpr f.encode_ne_nil
      have hwhole : encodeFields (f :: fields) = f.encode ++ encodeFields fields := rfl
      rw [hwhole, List.length_append, List.length_cons]
      omega

/-- Reading the bytes of a message gives its fields back. -/
theorem readFields_encodeFields {fields : List TaggedField} (hnumbered : ∀ f ∈ fields, f.Numbered)
    (hlength : (encodeFields fields).length < 2 ^ 64) :
    readFields (encodeFields fields) = some fields :=
  readFieldsOf_encodeFields (length_le_encodeFields fields) hnumbered hlength

/-- The bytes of a field are among those of its message. -/
theorem length_le_of_mem_fields {fields : List TaggedField} {number : Nat} {bytes : List UInt8}
    (h : (⟨number, .bytes bytes⟩ : TaggedField) ∈ fields) :
    bytes.length ≤ (encodeFields fields).length := by
  obtain ⟨before, after, rfl⟩ := List.append_of_mem h
  have hwhole : encodeFields (before ++ ⟨number, .bytes bytes⟩ :: after) =
      encodeFields before ++ (TaggedField.encode ⟨number, .bytes bytes⟩ ++ encodeFields after) := by
    rw [encodeFields, List.flatMap_append, List.flatMap_cons]
    rfl
  rw [hwhole, TaggedField.encode, TaggedField.payload]
  simp only [List.length_append]
  omega

/-! ## The fields with one number -/

/-- The integers under a number, in their order. -/
def wordsAt (number : Nat) (fields : List TaggedField) : List UInt64 :=
  fields.filterMap fun f =>
    match f.value with
    | .word word => if f.number = number then some word else none
    | .bytes _ => none

/-- The strings of bytes under a number, in their order. -/
def bytesAt (number : Nat) (fields : List TaggedField) : List (List UInt8) :=
  fields.filterMap fun f =>
    match f.value with
    | .word _ => none
    | .bytes bytes => if f.number = number then some bytes else none

theorem length_le_of_bytesAt {fields : List TaggedField} {number : Nat} {bytes : List UInt8}
    (h : bytes ∈ bytesAt number fields) : bytes.length ≤ (encodeFields fields).length := by
  obtain ⟨⟨number', value⟩, hf, hvalue⟩ := List.mem_filterMap.mp h
  cases value with
  | word word => simp at hvalue
  | bytes bytes' =>
      simp only [Option.ite_none_right_eq_some, Option.some.injEq] at hvalue
      obtain ⟨-, rfl⟩ := hvalue
      exact length_le_of_mem_fields hf

/-- Of a field that comes more than once, the last counts. -/
def word? (number : Nat) (fields : List TaggedField) : Option UInt64 :=
  (wordsAt number fields).getLast?

def bytes? (number : Nat) (fields : List TaggedField) : Option (List UInt8) :=
  (bytesAt number fields).getLast?

/-- A message within a message.  What comes more than once is put together. -/
def message? (number : Nat) (fields : List TaggedField) : Option (List UInt8) :=
  if bytesAt number fields = [] then none else some (bytesAt number fields).flatten

def wordField (number : Nat) (word : UInt64) : List TaggedField := [⟨number, .word word⟩]

def bytesField (number : Nat) (bytes : List UInt8) : List TaggedField := [⟨number, .bytes bytes⟩]

/-- The fields of a value that may be absent. -/
def optionally {α : Type} (fields : α → List TaggedField) : Option α → List TaggedField
  | none => []
  | some a => fields a

/-- The fields of a value that may come any number of times. -/
def repeatedly {α : Type} (fields : α → List TaggedField) (l : List α) : List TaggedField :=
  l.flatMap fields

section At

variable {number number' : Nat}

@[simp] theorem wordsAt_append (fields fields' : List TaggedField) :
    wordsAt number (fields ++ fields') = wordsAt number fields ++ wordsAt number fields' :=
  List.filterMap_append

@[simp] theorem bytesAt_append (fields fields' : List TaggedField) :
    bytesAt number (fields ++ fields') = bytesAt number fields ++ bytesAt number fields' :=
  List.filterMap_append

@[simp] theorem wordsAt_wordField (word : UInt64) :
    wordsAt number (wordField number' word) = if number' = number then [word] else [] := by
  unfold wordsAt wordField
  by_cases h : number' = number <;> simp [h]

@[simp] theorem wordsAt_bytesField (bytes : List UInt8) :
    wordsAt number (bytesField number' bytes) = [] := rfl

@[simp] theorem bytesAt_wordField (word : UInt64) :
    bytesAt number (wordField number' word) = [] := rfl

@[simp] theorem bytesAt_bytesField (bytes : List UInt8) :
    bytesAt number (bytesField number' bytes) = if number' = number then [bytes] else [] := by
  unfold bytesAt bytesField
  by_cases h : number' = number <;> simp [h]

theorem wordsAt_optionally_map {α : Type} (word : α → UInt64) (o : Option α) :
    wordsAt number (optionally (fun a => wordField number' (word a)) o) =
      if number' = number then (o.map word).toList else [] := by
  cases o with
  | none => simp [optionally, wordsAt]
  | some a => exact wordsAt_wordField (word a)

@[simp] theorem wordsAt_optionally_wordField (o : Option UInt64) :
    wordsAt number (optionally (wordField number') o) =
      if number' = number then o.toList else [] := by
  rw [show wordField number' = fun word => wordField number' (id word) from rfl,
    wordsAt_optionally_map, Option.map_id]
  rfl

@[simp] theorem bytesAt_optionally_wordField (o : Option UInt64) :
    bytesAt number (optionally (wordField number') o) = [] := by
  cases o <;> rfl

@[simp] theorem wordsAt_optionally_bytesField (o : Option (List UInt8)) :
    wordsAt number (optionally (bytesField number') o) = [] := by
  cases o <;> rfl

theorem bytesAt_optionally_map {α : Type} (bytes : α → List UInt8) (o : Option α) :
    bytesAt number (optionally (fun a => bytesField number' (bytes a)) o) =
      if number' = number then (o.map bytes).toList else [] := by
  cases o with
  | none => simp [optionally, bytesAt]
  | some a => exact bytesAt_bytesField (bytes a)

@[simp] theorem bytesAt_optionally_bytesField (o : Option (List UInt8)) :
    bytesAt number (optionally (bytesField number') o) =
      if number' = number then o.toList else [] := by
  rw [show bytesField number' = fun bytes => bytesField number' (id bytes) from rfl,
    bytesAt_optionally_map, Option.map_id]
  rfl

theorem wordsAt_repeatedly_map {α : Type} (word : α → UInt64) (l : List α) :
    wordsAt number (repeatedly (fun a => wordField number' (word a)) l) =
      if number' = number then l.map word else [] := by
  unfold repeatedly
  induction l with
  | nil => simp [wordsAt]
  | cons a l ih =>
      rw [List.flatMap_cons, wordsAt_append, ih, wordsAt_wordField]
      by_cases h : number' = number <;> simp [h]

theorem getLast?_toList {α : Type} (o : Option α) : o.toList.getLast? = o := by cases o <;> rfl

end At

/-- Every field has a number that a field may have. -/
def AllNumbered (fields : List TaggedField) : Prop := ∀ f ∈ fields, f.Numbered

section AllNumbered

variable {number : Nat}

@[simp] theorem allNumbered_append {fields fields' : List TaggedField} :
    AllNumbered (fields ++ fields') ↔ AllNumbered fields ∧ AllNumbered fields' :=
  List.forall_mem_append

@[simp] theorem allNumbered_wordField {word : UInt64} :
    AllNumbered (wordField number word) ↔ 0 < number ∧ number < 2 ^ 29 :=
  List.forall_mem_singleton

@[simp] theorem allNumbered_bytesField {bytes : List UInt8} :
    AllNumbered (bytesField number bytes) ↔ 0 < number ∧ number < 2 ^ 29 :=
  List.forall_mem_singleton

theorem allNumbered_optionally {α : Type} {fields : α → List TaggedField}
    (h : ∀ a, AllNumbered (fields a)) (o : Option α) : AllNumbered (optionally fields o) := by
  cases o with
  | none => exact List.forall_mem_nil _
  | some a => exact h a

theorem allNumbered_repeatedly {α : Type} {fields : α → List TaggedField}
    (h : ∀ a, AllNumbered (fields a)) (l : List α) : AllNumbered (repeatedly fields l) := by
  intro f hf
  obtain ⟨a, -, hmem⟩ := List.mem_flatMap.mp hf
  exact h a f hmem

end AllNumbered

/-! ## Sizes -/

theorem length_varintOf {k n : Nat} (hn : n < 128 ^ (k + 1)) :
    (varintOf k n).length = varintSize n := by
  induction k generalizing n with
  | zero => rw [varintSize_of_lt (by simpa using hn), varintOf, List.length_singleton]
  | succ k ih =>
      rcases Nat.lt_or_ge n 128 with hlt | hge
      · rw [varintSize_of_lt hlt, varintOf, if_pos hlt, List.length_singleton]
      · have hquot : n / 128 < 128 ^ (k + 1) := Nat.div_lt_of_lt_mul (by rwa [Nat.mul_comm])
        rw [varintSize_of_le hge, varintOf, if_neg (Nat.not_lt.mpr hge), List.length_cons, ih hquot]

theorem length_varint (word : UInt64) : (varint word).length = wordSize word :=
  length_varintOf (toNat_lt_varint word)

/-- Number of bytes of a field. -/
def TaggedField.size (f : TaggedField) : Nat :=
  match f.value with
  | .word word => integerField f.number word
  | .bytes bytes => lengthField f.number bytes.length

theorem TaggedField.length_encode {f : TaggedField} (h : f.Numbered) (hsize : f.size < 2 ^ 64) :
    f.encode.length = f.size := by
  have htag := f.toNat_tag h
  obtain ⟨number, value⟩ := f
  cases value with
  | word word =>
      simp only [wireType] at htag
      simp only [encode, payload, size, integerField, tagSize, List.length_append, length_varint,
        wordSize, htag]
  | bytes bytes =>
      simp only [size, lengthField] at hsize
      have hbytes : (UInt64.ofNat bytes.length).toNat = bytes.length := by
        rw [UInt64.toNat_ofNat']
        omega
      simp only [wireType] at htag
      simp only [encode, payload, size, lengthField, tagSize, List.length_append, length_varint,
        wordSize, htag, hbytes]
      omega

/-- Number of bytes of a list of fields. -/
def fieldsSize (fields : List TaggedField) : Nat := (fields.map TaggedField.size).sum

theorem length_encodeFields {fields : List TaggedField} (hnumbered : AllNumbered fields)
    (hsize : fieldsSize fields < 2 ^ 64) : (encodeFields fields).length = fieldsSize fields := by
  induction fields with
  | nil => rfl
  | cons f fields ih =>
      simp only [fieldsSize, List.map_cons, List.sum_cons] at hsize ih ⊢
      have hone := f.length_encode (hnumbered f (by simp)) (by omega)
      have hmore := ih (fun g hg => hnumbered g (List.mem_cons_of_mem f hg)) (by omega)
      have hwhole : encodeFields (f :: fields) = f.encode ++ encodeFields fields := rfl
      rw [hwhole, List.length_append, hone, hmore]

section FieldsSize

variable {number : Nat}

@[simp] theorem fieldsSize_append (fields fields' : List TaggedField) :
    fieldsSize (fields ++ fields') = fieldsSize fields + fieldsSize fields' := by
  simp [fieldsSize]

@[simp] theorem fieldsSize_wordField (word : UInt64) :
    fieldsSize (wordField number word) = integerField number word := rfl

@[simp] theorem fieldsSize_bytesField (bytes : List UInt8) :
    fieldsSize (bytesField number bytes) = lengthField number bytes.length := rfl

@[simp] theorem fieldsSize_optionally {α : Type} (fields : α → List TaggedField) (o : Option α) :
    fieldsSize (optionally fields o) = optionalField (fun a => fieldsSize (fields a)) o := by
  cases o <;> rfl

@[simp] theorem fieldsSize_repeatedly {α : Type} (fields : α → List TaggedField) (l : List α) :
    fieldsSize (repeatedly fields l) = (l.map fun a => fieldsSize (fields a)).sum := by
  unfold repeatedly
  induction l with
  | nil => rfl
  | cons a l ih => rw [List.flatMap_cons, fieldsSize_append, ih, List.map_cons, List.sum_cons]

end FieldsSize

/-! ## Types of messages -/

/-- A type of messages, each a list of fields that gives the message back. -/
structure Format (M : Type) where
  fields : M → List TaggedField
  ofFields : List TaggedField → Option M
  numbered : ∀ m, AllNumbered (fields m)
  ofFields_fields : ∀ m, (encodeFields (fields m)).length < 2 ^ 64 → ofFields (fields m) = some m

namespace Format

variable {M : Type}

def serialize (format : Format M) (m : M) : List UInt8 := encodeFields (format.fields m)

def parse (format : Format M) (bytes : List UInt8) : Option M :=
  (readFields bytes).bind format.ofFields

theorem parse_serialize (format : Format M) {m : M} (h : (format.serialize m).length < 2 ^ 64) :
    format.parse (format.serialize m) = some m := by
  rw [parse, serialize, readFields_encodeFields (format.numbered m) h, Option.bind_some]
  exact format.ofFields_fields m h

/-- Number of bytes of a message. -/
def size (format : Format M) (m : M) : Nat := fieldsSize (format.fields m)

theorem length_serialize (format : Format M) {m : M} (h : format.size m < 2 ^ 64) :
    (format.serialize m).length = format.size m :=
  length_encodeFields (format.numbered m) h

/-- A message within a message. -/
def field (format : Format M) (number : Nat) (m : M) : List TaggedField :=
  bytesField number (format.serialize m)

@[simp] theorem wordsAt_field (format : Format M) {number number' : Nat} (m : M) :
    wordsAt number (format.field number' m) = [] := rfl

@[simp] theorem bytesAt_field (format : Format M) {number number' : Nat} (m : M) :
    bytesAt number (format.field number' m) =
      if number' = number then [format.serialize m] else [] := bytesAt_bytesField _

@[simp] theorem wordsAt_optionally_field (format : Format M) {number number' : Nat}
    (o : Option M) : wordsAt number (optionally (format.field number') o) = [] := by
  cases o <;> rfl

@[simp] theorem bytesAt_optionally_field (format : Format M) {number number' : Nat}
    (o : Option M) :
    bytesAt number (optionally (format.field number') o) =
      if number' = number then (o.map format.serialize).toList else [] :=
  bytesAt_optionally_map format.serialize o

@[simp] theorem allNumbered_field (format : Format M) {number : Nat} {m : M} :
    AllNumbered (format.field number m) ↔ 0 < number ∧ number < 2 ^ 29 := allNumbered_bytesField

/-- A message that has to be there. -/
def required (format : Format M) (number : Nat) (fields : List TaggedField) : Option M :=
  (message? number fields).bind format.parse

/-- A message that may be absent. -/
def optional (format : Format M) (number : Nat) (fields : List TaggedField) : Option (Option M) :=
  match message? number fields with
  | none => some none
  | some bytes => (format.parse bytes).map some

variable {format : Format M} {number : Nat} {fields : List TaggedField}

theorem parse_of_bytesAt {m : M} (h : format.serialize m ∈ bytesAt number fields)
    (hlength : (encodeFields fields).length < 2 ^ 64) :
    format.parse (format.serialize m) = some m :=
  format.parse_serialize (Nat.lt_of_le_of_lt (length_le_of_bytesAt h) hlength)

theorem required_of_bytesAt {m : M} (h : bytesAt number fields = [format.serialize m])
    (hlength : (encodeFields fields).length < 2 ^ 64) : format.required number fields = some m := by
  have hparse := parse_of_bytesAt (h ▸ List.mem_singleton.mpr rfl) hlength
  simp [required, message?, h, hparse]

theorem optional_of_bytesAt {o : Option M}
    (h : bytesAt number fields = (o.map format.serialize).toList)
    (hlength : (encodeFields fields).length < 2 ^ 64) : format.optional number fields = some o := by
  cases o with
  | none =>
      have hnil : bytesAt number fields = [] := h
      simp [optional, message?, hnil]
  | some m =>
      have hone : bytesAt number fields = [format.serialize m] := h
      have hparse := parse_of_bytesAt (hone ▸ List.mem_singleton.mpr rfl) hlength
      simp [optional, message?, hone, hparse]

end Format

end Firehose.Foundation
