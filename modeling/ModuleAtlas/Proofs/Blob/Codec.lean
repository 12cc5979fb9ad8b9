import ModuleAtlas.Blob.Codec
import Mathlib.Algebra.Group.Nat.Hom

/-!
# Bytes that carry their own length

`Reads` says of a reader that it takes certain bytes off the front of any input, and that the input
ended for it wherever they are cut short. Readers one after the other read the bytes one after the
other, so every codec built from smaller ones delimits its values if these do.
-/

namespace ModuleAtlas.Blob.Codec

variable {α β : Type}

structure Reads (read : Bytes → Except Fault (α × Bytes)) (bytes : Bytes) (a : α) : Prop where
  whole : ∀ rest, read (bytes ++ rest) = .ok (a, rest)
  cut : ∀ n < bytes.length, read (bytes.take n) = .error .ended

/-- The codec reads back what it writes, for the values that fit. -/
def Delimits (codec : Codec α) (fits : α → Prop) : Prop :=
  ∀ a, fits a → Reads codec.decode (codec.encode a) a

namespace Reads

variable {read : Bytes → Except Fault (α × Bytes)} {front back bytes : Bytes} {a : α} {b : β}

theorem nil (done : ∀ rest, read rest = .ok (a, rest)) : Reads read [] a where
  whole := done
  cut n bound := absurd bound (Nat.not_lt_zero n)

theorem cons {first : UInt8} {read' : Bytes → Except Fault (α × Bytes)}
    (empty : read [] = .error .ended) (next : ∀ rest, read (first :: rest) = read' rest)
    (h : Reads read' bytes a) : Reads read (first :: bytes) a where
  whole rest := (next _).trans (h.whole rest)
  cut n bound := by
    cases n with
    | zero => exact empty
    | succ n =>
      rw [List.take_succ_cons, next]
      exact h.cut n (Nat.lt_of_succ_lt_succ bound)

/-- The second reader goes on where the first one stops. -/
theorem bind {k : α → Bytes → Except Fault (β × Bytes)} (first : Reads read front a)
    (second : Reads (k a) back b) :
    Reads (fun bytes => read bytes >>= fun (a, rest) => k a rest) (front ++ back) b where
  whole rest := by
    rw [List.append_assoc, first.whole]
    exact second.whole rest
  cut n bound := by
    rw [List.length_append] at bound
    by_cases inside : n < front.length
    · rw [List.take_append_of_le_length (Nat.le_of_lt inside), first.cut n inside]
      rfl
    · rw [List.take_append, List.take_of_length_le (Nat.le_of_not_lt inside), first.whole]
      exact second.cut _ (by omega)

theorem map {f : α → β} (h : Reads read bytes a) :
    Reads (fun bytes => (read bytes).map fun (a, rest) => (f a, rest)) bytes (f a) where
  whole rest := by rw [h.whole]; rfl
  cut n bound := by rw [h.cut n bound]; rfl

theorem bindReturn {f : α → β} (h : Reads read bytes a) :
    Reads (fun bytes => read bytes >>= fun (a, rest) => return (f a, rest)) bytes (f a) where
  whole rest := by rw [h.whole]; rfl
  cut n bound := by rw [h.cut n bound]; rfl

end Reads

/-! ## Numbers -/

theorem reads_number {width n : Nat} (fits : n < 256 ^ width) :
    Reads (takeNumber width) (lowBytes width n) n := by
  induction width generalizing n with
  | zero =>
    obtain rfl : n = 0 := by simpa using fits
    exact .nil fun _ => rfl
  | succ width ih =>
    have high : n / 256 < 256 ^ width := by
      rw [Nat.div_lt_iff_lt_mul (by decide)]
      simpa [Nat.pow_succ] using fits
    have digits : (UInt8.ofNat n).toNat + 256 * (n / 256) = n := Nat.mod_add_div n 256
    have rest := (ih high).bindReturn (f := fun high => (UInt8.ofNat n).toNat + 256 * high)
    rw [digits] at rest
    exact .cons rfl (fun _ => rfl) rest

theorem uint32_delimits : uint32.Delimits fun _ => True := by
  intro n _
  have read := (reads_number (show n.toNat < 256 ^ 4 from n.toNat_lt)).map (f := UInt32.ofNat)
  rwa [UInt32.ofNat_toNat] at read

theorem size_delimits : size.Delimits (· < UInt64.size) :=
  fun _ fits => reads_number fits

theorem bool_delimits : bool.Delimits fun _ => True := by
  intro b _
  have done : Reads (fun rest => (.ok (b, rest) : Except Fault _)) [] b := .nil fun _ => rfl
  refine .cons rfl (fun rest => ?_) done
  cases b <;> rfl

/-- A place in a list of values is a number of four bytes. -/
theorem oneOf_delimits [DecidableEq α] {values : List α} (few : values.length ≤ UInt32.size) :
    (oneOf values).Delimits (· ∈ values) := by
  intro a member
  have place : values.idxOf a < 256 ^ 4 := by
    have := List.idxOf_lt_length_of_mem member
    have : UInt32.size = 256 ^ 4 := rfl
    omega
  have held : values[values.idxOf a]? = some a := by
    rw [List.getElem?_eq_getElem (List.idxOf_lt_length_of_mem member), List.getElem_idxOf]
  have found : Reads (valueAt values (values.idxOf a)) [] a := .nil fun _ => by rw [valueAt, held]
  have read := (reads_number place).bind (k := valueAt values) found
  rwa [List.append_nil] at read

/-! ## Text -/

theorem fromUTF8?_toUTF8 (s : String) : String.fromUTF8? s.toUTF8 = some s := by
  unfold String.fromUTF8?
  rw [String.toUTF8_eq_toByteArray, dif_pos s.isValidUTF8]
  rfl

theorem reads_text (s : String) : Reads (takeText s.toUTF8.size) s.toUTF8.data.toList s := by
  have length : s.toUTF8.data.toList.length = s.toUTF8.size := rfl
  constructor
  · intro rest
    have enough : ¬ (s.toUTF8.data.toList ++ rest).length < s.toUTF8.size := by
      rw [List.length_append, length]
      omega
    rw [takeText, if_neg enough, List.take_left' length, List.drop_left' length,
      Array.toArray_toList, fromUTF8?_toUTF8]
  · intro n bound
    have short : (s.toUTF8.data.toList.take n).length < s.toUTF8.size := by
      rw [List.length_take]
      omega
    rw [takeText, if_pos short]

theorem text_delimits : text.Delimits fun s => s.utf8ByteSize < UInt64.size :=
  fun s fits => (size_delimits s.toUTF8.size fits).bind (k := takeText) (reads_text s)

/-! ## Parts -/

variable {codec : Codec α} {fits : α → Prop}

theorem Delimits.option (h : codec.Delimits fits) :
    codec.option.Delimits fun o => ∀ a ∈ o, fits a := by
  intro o all
  cases o with
  | none =>
    have done : Reads (fun rest => (.ok (none, rest) : Except Fault (Option α × Bytes))) [] none :=
      .nil fun _ => rfl
    exact .cons rfl (fun _ => rfl) done
  | some a =>
    have inner := (h a (all a rfl)).map (f := some)
    exact .cons rfl (fun _ => rfl) inner

theorem reads_many (items : List α) (each : ∀ a ∈ items, Reads codec.decode (codec.encode a) a) :
    Reads (takeMany codec items.length) (items.flatMap codec.encode) items := by
  induction items with
  | nil => exact .nil fun _ => rfl
  | cons a items ih =>
    rw [List.forall_mem_cons] at each
    exact each.1.bind (k := fun a bytes => takeMany codec items.length bytes >>=
      fun more => return (a :: more.1, more.2)) (ih each.2).bindReturn

theorem Delimits.list (h : codec.Delimits fits) :
    codec.list.Delimits fun items => items.length < UInt64.size ∧ ∀ a ∈ items, fits a :=
  fun items ⟨few, all⟩ =>
    (size_delimits _ few).bind (k := takeMany codec)
      (reads_many items fun a member => h a (all a member))

theorem Delimits.pair {second : Codec β} {fits' : β → Prop} (h : codec.Delimits fits)
    (h' : second.Delimits fits') :
    (codec.pair second).Delimits fun p => fits p.1 ∧ fits' p.2 :=
  fun (a, b) ⟨here, there⟩ => (h a here).bind
    (k := fun a bytes => second.decode bytes >>= fun read => return ((a, read.1), read.2))
    (h' b there).bindReturn

theorem Delimits.via {fits' : β → Prop} {ofSource : α → β} {toSource : β → α}
    (h : codec.Delimits fits) (carried : ∀ b, fits' b → fits (toSource b))
    (inverse : ∀ b, ofSource (toSource b) = b) : (codec.via ofSource toSource).Delimits fits' := by
  intro b fits'
  have mapped := (h _ (carried b fits')).map (f := ofSource)
  rwa [inverse] at mapped

/-! ## What follows -/

/-- Of two values that fit, the bytes of one begin with those of the other only if they are one. -/
theorem Delimits.eq_of_prefix (h : codec.Delimits fits) {a b : α} (ha : fits a) (hb : fits b)
    (begins : codec.encode a <+: codec.encode b) : a = b := by
  obtain ⟨rest, same⟩ := begins
  have first := (h a ha).whole rest
  have second := (h b hb).whole []
  rw [List.append_nil, ← same, first] at second
  exact congrArg Prod.fst (Except.ok.inj second)

theorem Delimits.ended_of_prefix (h : codec.Delimits fits) {a : α} (ha : fits a) {front : Bytes}
    (begins : front <+: codec.encode a) (cut : front ≠ codec.encode a) :
    codec.decode front = .error .ended := by
  have shorter : front.length < (codec.encode a).length :=
    Nat.lt_of_le_of_ne begins.length_le fun same => cut (begins.eq_of_length same)
  rw [List.prefix_iff_eq_take.mp begins]
  exact (h a ha).cut _ shorter

end ModuleAtlas.Blob.Codec
