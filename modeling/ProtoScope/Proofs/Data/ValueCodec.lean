/-
Values survive their encoding.

What the encoder appends for a value, the decoder takes off again, whatever follows, and
both count the same nodes.  So an encoding decodes to its value.  Conversely a value the
decoder accepts has at most the nodes, the nesting and the bytes of the limits, and on no
input does the decoder take a byte that is not there.
-/
import ProtoScope.Data.ValueCodec
import ProtoScope.Library.LittleEndian
import ProtoScope.Library.FloatOrder

namespace ProtoScope.Data

open ProtoScope.Library LittleEndian Encoder

/-! ### What the limits count -/

mutual

/-- The values in a value, itself included. -/
def Value.nodes : Value → ℕ
  | .array values => 1 + valuesNodes values
  | .object entries => 1 + entriesNodes entries
  | _ => 1

def valuesNodes : List Value → ℕ
  | [] => 0
  | value :: values => value.nodes + valuesNodes values

def entriesNodes : List (Text × Value) → ℕ
  | [] => 0
  | entry :: entries => entry.2.nodes + entriesNodes entries

end

mutual

/-- How deep values are nested in a value. -/
def Value.depth : Value → ℕ
  | .array values => valuesDepth values
  | .object entries => entriesDepth entries
  | _ => 0

/-- The nesting below the value that holds these. -/
def valuesDepth : List Value → ℕ
  | [] => 0
  | value :: values => max (value.depth + 1) (valuesDepth values)

def entriesDepth : List (Text × Value) → ℕ
  | [] => 0
  | entry :: entries => max (entry.2.depth + 1) (entriesDepth entries)

end

mutual

/-- What `std::map` keeps: the keys of every object ascend. -/
def Value.Ordered : Value → Prop
  | .array values => ValuesOrdered values
  | .object entries => OrderedMap.Ascending entries ∧ EntriesOrdered entries
  | _ => True

def ValuesOrdered : List Value → Prop
  | [] => True
  | value :: values => value.Ordered ∧ ValuesOrdered values

def EntriesOrdered : List (Text × Value) → Prop
  | [] => True
  | entry :: entries => entry.2.Ordered ∧ EntriesOrdered entries

end

theorem valuesNodes_append (first second : List Value) :
    valuesNodes (first ++ second) = valuesNodes first + valuesNodes second := by
  induction first with
  | nil => simp [valuesNodes]
  | cons value values ih =>
    simp only [List.cons_append, valuesNodes, ih]
    omega

theorem valuesBytes_append (first second : List Value) :
    valuesBytes (first ++ second) = valuesBytes first + valuesBytes second := by
  induction first with
  | nil => simp [valuesBytes]
  | cons value values ih =>
    simp only [List.cons_append, valuesBytes, ih]
    omega

theorem valuesDepth_le {values : List Value} {bound : ℕ} :
    valuesDepth values ≤ bound ↔ ∀ value ∈ values, value.depth + 1 ≤ bound := by
  induction values with
  | nil => simp [valuesDepth]
  | cons value values ih => simp [valuesDepth, ih]

theorem valuesOrdered_iff {values : List Value} :
    ValuesOrdered values ↔ ∀ value ∈ values, value.Ordered := by
  induction values with
  | nil => simp [ValuesOrdered]
  | cons value values ih => simp [ValuesOrdered, ih]

theorem entriesNodes_eq_sum (entries : List (Text × Value)) :
    entriesNodes entries = (entries.map fun entry => entry.2.nodes).sum := by
  induction entries with
  | nil => rfl
  | cons entry entries ih => simp [entriesNodes, ih]

theorem entriesBytes_eq_sum (entries : List (Text × Value)) :
    entriesBytes entries =
      (entries.map fun entry => 8 + entry.1.length + entry.2.encodedBytes).sum := by
  induction entries with
  | nil => rfl
  | cons entry entries ih => simp [entriesBytes, ih]

theorem entriesDepth_le {entries : List (Text × Value)} {bound : ℕ} :
    entriesDepth entries ≤ bound ↔ ∀ entry ∈ entries, entry.2.depth + 1 ≤ bound := by
  induction entries with
  | nil => simp [entriesDepth]
  | cons entry entries ih => simp [entriesDepth, ih]

theorem entriesOrdered_iff {entries : List (Text × Value)} :
    EntriesOrdered entries ↔ ∀ entry ∈ entries, entry.2.Ordered := by
  induction entries with
  | nil => simp [EntriesOrdered]
  | cons entry entries ih => simp [EntriesOrdered, ih]

/-! ### Reading numbers and bytes -/

theorem refuse_eq_ok {condition : Prop} [Decidable condition] {message : String} {u : Unit} :
    refuse condition message = .ok u ↔ ¬ condition := by
  unfold refuse
  split
  · rename_i h
    simp [h]
  · rename_i h
    simp [h]

theorem refuse_of_not {condition : Prop} [Decidable condition] (h : ¬ condition)
    (message : String) : refuse condition message = .ok () :=
  if_neg h

namespace Decoder

@[simp] theorem byte_nil (nodes : ℕ) :
    byte ⟨[], nodes⟩ = .error (.refused "值数据被截断") := rfl

@[simp] theorem byte_cons (first : UInt8) (rest : List UInt8) (nodes : ℕ) :
    byte ⟨first :: rest, nodes⟩ = .ok (first, ⟨rest, nodes⟩) := rfl

/-- The loop over the eight bytes adds each at its place. -/
theorem integerFrom_eq (n i : ℕ) (result : UInt64) (bytes rest : List UInt8) (nodes : ℕ)
    (hi : i + n ≤ 8) (hresult : result.toNat < 256 ^ i) (hbytes : bytes.length = n) :
    integerFrom n i result ⟨bytes ++ rest, nodes⟩ =
      .ok (UInt64.ofNat (result.toNat + 256 ^ i * number bytes), ⟨rest, nodes⟩) := by
  induction n generalizing i result bytes with
  | zero =>
    rw [List.length_eq_zero_iff.mp hbytes]
    simp [integerFrom, number]
  | succ n ih =>
    obtain ⟨first, others, rfl⟩ := List.exists_cons_of_length_eq_add_one hbytes
    have hor := or_shiftLeft (by omega : i < 8) hresult first
    have hnext : (result ||| (first.toUInt64 <<< UInt64.ofNat (8 * i))).toNat <
        256 ^ (i + 1) := by
      have hfirst : first.toNat + 1 ≤ 256 := first.toNat_lt
      have := Nat.mul_le_mul_left (256 ^ i) hfirst
      rw [hor, Nat.pow_succ]
      rw [Nat.mul_add] at this
      omega
    show integerFrom n (i + 1) _ ⟨others ++ rest, nodes⟩ = _
    rw [ih (i + 1) _ others (by omega) hnext (by simpa using hbytes), hor, number,
      Nat.pow_succ]
    ring_nf

/-- With too few bytes left the loop refuses. -/
theorem integerFrom_short (n i : ℕ) (result : UInt64) (bytes : List UInt8) (nodes : ℕ)
    (hbytes : bytes.length < n) :
    integerFrom n i result ⟨bytes, nodes⟩ = .error (.refused "值数据被截断") := by
  induction n generalizing i result bytes with
  | zero => omega
  | succ n ih =>
    cases bytes with
    | nil => rfl
    | cons first others =>
      show integerFrom n (i + 1) _ ⟨others, nodes⟩ = _
      exact ih _ _ _ (by simpa using hbytes)

/-- Eight bytes make an integer, with fewer the input is refused. -/
theorem integer_eq (bytes rest : List UInt8) (nodes : ℕ) (hbytes : bytes.length = 8) :
    integer ⟨bytes ++ rest, nodes⟩ =
      .ok (UInt64.ofNat (number bytes), ⟨rest, nodes⟩) := by
  have := integerFrom_eq 8 0 0 bytes rest nodes (by omega) (by decide) hbytes
  simpa [integer] using this

theorem integer_short (bytes : List UInt8) (nodes : ℕ) (hbytes : bytes.length < 8) :
    integer ⟨bytes, nodes⟩ = .error (.refused "值数据被截断") :=
  integerFrom_short 8 0 0 bytes nodes hbytes

theorem count_eq (size : UInt64) (bytes rest : List UInt8) (nodes : ℕ)
    (hbytes : bytes.length = 8) (hsize : UInt64.ofNat (number bytes) = size)
    (hrest : size.toNat ≤ rest.length) :
    count ⟨bytes ++ rest, nodes⟩ = .ok (size.toNat, ⟨rest, nodes⟩) := by
  unfold count
  rw [integer_eq bytes rest nodes hbytes, hsize]
  show (refuse (rest.length < size.toNat) _ >>= _) = _
  rw [refuse_of_not (by omega)]
  rfl

end Decoder

/-! ### What the decoder accepts -/

/-- A computation gives a result with the property, or refuses its input. -/
def Yields {α : Type} (computation : Except Fault α) (property : α → Prop) : Prop :=
  match computation with
  | .ok a => property a
  | .error fault => fault ≠ .outOfBounds

namespace Yields

variable {α β : Type}

theorem bind {computation : Except Fault α} {next : α → Except Fault β} {P : α → Prop}
    {Q : β → Prop} (h : Yields computation P) (hnext : ∀ a, P a → Yields (next a) Q) :
    Yields (computation >>= next) Q := by
  cases computation with
  | error fault => exact h
  | ok a => exact hnext a h

theorem mono {computation : Except Fault α} {P Q : α → Prop} (h : Yields computation P)
    (himp : ∀ a, P a → Q a) : Yields computation Q := by
  cases computation with
  | error fault => exact h
  | ok a => exact himp a h

theorem of_refuse {condition : Prop} [Decidable condition] (message : String) :
    Yields (refuse condition message) fun _ => ¬ condition := by
  unfold refuse
  split
  · exact fun h => nomatch h
  · assumption

theorem of_ok {computation : Except Fault α} {a : α} {P : α → Prop}
    (h : Yields computation P) (hok : computation = .ok a) : P a := by
  rw [hok] at h
  exact h

theorem not_outOfBounds {computation : Except Fault α} {P : α → Prop}
    (h : Yields computation P) : computation ≠ .error .outOfBounds := by
  intro heq
  rw [heq] at h
  exact h rfl

end Yields

namespace Decoder

/-- `size` bytes were taken and no value counted. -/
def Took (size : ℕ) (before after : Decoder) : Prop :=
  before.remaining.length = after.remaining.length + size ∧ after.nodes = before.nodes

theorem byte_yields (decoder : Decoder) :
    Yields decoder.byte fun result => Took 1 decoder result.2 := by
  obtain ⟨remaining, nodes⟩ := decoder
  cases remaining with
  | nil => exact fun h => nomatch h
  | cons first rest => exact ⟨rfl, rfl⟩

theorem integer_yields (decoder : Decoder) :
    Yields decoder.integer fun result => Took 8 decoder result.2 := by
  obtain ⟨remaining, nodes⟩ := decoder
  by_cases hshort : remaining.length < 8
  · rw [integer_short remaining nodes hshort]
    exact fun h => nomatch h
  · have htake : (remaining.take 8).length = 8 := by
      rw [List.length_take]
      omega
    have heq := integer_eq (remaining.take 8) (remaining.drop 8) nodes htake
    rw [List.take_append_drop] at heq
    rw [heq]
    refine ⟨?_, rfl⟩
    show remaining.length = (remaining.drop 8).length + 8
    rw [List.length_drop]
    omega

theorem count_yields (decoder : Decoder) :
    Yields decoder.count fun result =>
      Took 8 decoder result.2 ∧ result.1 ≤ result.2.remaining.length := by
  apply (integer_yields decoder).bind
  intro ⟨size, after⟩ htook
  apply (Yields.of_refuse _).bind
  intro _ hsize
  exact ⟨htook, Nat.le_of_not_lt hsize⟩

theorem bytes_yields (decoder : Decoder) :
    Yields decoder.bytes fun result => Took (8 + result.1.length) decoder result.2 := by
  apply (count_yields decoder).bind
  intro ⟨size, after⟩ ⟨⟨hlength, hnodes⟩, hsize⟩
  have hfirst : first after.remaining size = .ok (after.remaining.take size) := if_pos hsize
  have hrest : subspan after.remaining size = .ok (after.remaining.drop size) := if_pos hsize
  simp only at hlength hnodes hsize ⊢
  rw [hfirst, hrest]
  refine ⟨?_, hnodes⟩
  show _ = (after.remaining.drop size).length + (8 + (after.remaining.take size).length)
  rw [List.length_drop, List.length_take, Nat.min_eq_left hsize]
  omega

/-- What is known of a value the decoder has accepted at some depth. -/
structure Accepted (limits : ValueLimits) (depth : ℕ) (before : Decoder) (value : Value)
    (after : Decoder) : Prop where
  nodes : after.nodes = before.nodes + value.nodes
  nodesLe : after.nodes ≤ limits.maxNodes.toNat
  depthLe : depth + value.depth ≤ limits.maxDepth.toNat
  taken : before.remaining.length = after.remaining.length + value.encodedBytes
  ordered : value.Ordered

section Loops

variable {limits : ValueLimits} {depth : ℕ}
  {element : Decoder → Except Fault (Value × Decoder)}

/-- Every value of the loop was accepted one level below the array. -/
theorem decodeValues_yields
    (helement : ∀ decoder, Yields (element decoder) fun result =>
      Accepted limits (depth + 1) decoder result.1 result.2)
    (size : ℕ) (values : List Value) (decoder : Decoder)
    (hnodes : decoder.nodes ≤ limits.maxNodes.toNat)
    (hvalues : ∀ value ∈ values,
      depth + (value.depth + 1) ≤ limits.maxDepth.toNat ∧ value.Ordered) :
    Yields (decodeValues element size values decoder) fun result =>
      result.2.nodes + valuesNodes values = decoder.nodes + valuesNodes result.1 ∧
      result.2.nodes ≤ limits.maxNodes.toNat ∧
      decoder.remaining.length + valuesBytes values =
        result.2.remaining.length + valuesBytes result.1 ∧
      ∀ value ∈ result.1, depth + (value.depth + 1) ≤ limits.maxDepth.toNat ∧ value.Ordered := by
  induction size generalizing values decoder with
  | zero => exact ⟨rfl, hnodes, rfl, hvalues⟩
  | succ size ih =>
    apply (helement decoder).bind
    intro ⟨value, after⟩ haccepted
    obtain ⟨hcount, hnodesLe, hdepth, htaken, hordered⟩ := haccepted
    dsimp only at hcount hnodesLe hdepth htaken hordered
    have hall : ∀ other ∈ values ++ [value],
        depth + (other.depth + 1) ≤ limits.maxDepth.toNat ∧ other.Ordered := by
      intro other hother
      rcases List.mem_append.mp hother with hother | hother
      · exact hvalues other hother
      · rw [List.mem_singleton.mp hother]
        exact ⟨by omega, hordered⟩
    apply (ih (values ++ [value]) after hnodesLe hall).mono
    intro ⟨result, last⟩ ⟨hresult, hlast, hbytes, hmem⟩
    dsimp only at hresult hlast hbytes hmem ⊢
    simp only [valuesNodes_append, valuesBytes_append, valuesNodes, valuesBytes]
      at hresult hbytes
    exact ⟨by omega, hlast, by omega, hmem⟩

/-- Every value of the loop was accepted one level below the object, under a key of its own. -/
theorem decodeEntries_yields
    (helement : ∀ decoder, Yields (element decoder) fun result =>
      Accepted limits (depth + 1) decoder result.1 result.2)
    (size : ℕ) (entries : List (Text × Value)) (decoder : Decoder)
    (hnodes : decoder.nodes ≤ limits.maxNodes.toNat)
    (hascending : OrderedMap.Ascending entries)
    (hentries : ∀ entry ∈ entries,
      depth + (entry.2.depth + 1) ≤ limits.maxDepth.toNat ∧ entry.2.Ordered) :
    Yields (decodeEntries element size entries decoder) fun result =>
      result.2.nodes + entriesNodes entries = decoder.nodes + entriesNodes result.1 ∧
      result.2.nodes ≤ limits.maxNodes.toNat ∧
      decoder.remaining.length + entriesBytes entries =
        result.2.remaining.length + entriesBytes result.1 ∧
      OrderedMap.Ascending result.1 ∧
      ∀ entry ∈ result.1,
        depth + (entry.2.depth + 1) ≤ limits.maxDepth.toNat ∧ entry.2.Ordered := by
  induction size generalizing entries decoder with
  | zero => exact ⟨rfl, hnodes, rfl, hascending, hentries⟩
  | succ size ih =>
    apply (bytes_yields decoder).bind
    intro ⟨key, middle⟩ ⟨hkeyLength, hkeyNodes⟩
    apply (helement middle).bind
    intro ⟨value, after⟩ haccepted
    obtain ⟨hcount, hnodesLe, hdepth, htaken, hordered⟩ := haccepted
    dsimp only at hkeyLength hkeyNodes hcount hnodesLe hdepth htaken hordered
    dsimp only
    cases hemplace : OrderedMap.emplace key value entries with
    | none => exact fun h => nomatch h
    | some more =>
      have hperm := OrderedMap.emplace_perm hemplace
      have hmore : ∀ entry ∈ more,
          depth + (entry.2.depth + 1) ≤ limits.maxDepth.toNat ∧ entry.2.Ordered := by
        intro entry hentry
        rcases List.mem_cons.mp (hperm.mem_iff.mp hentry) with rfl | hentry
        · exact ⟨by dsimp only; omega, hordered⟩
        · exact hentries entry hentry
      have hmoreNodes : entriesNodes more = value.nodes + entriesNodes entries := by
        rw [entriesNodes_eq_sum, (hperm.map _).sum_eq, entriesNodes_eq_sum]
        rfl
      have hmoreBytes : entriesBytes more =
          8 + key.length + value.encodedBytes + entriesBytes entries := by
        rw [entriesBytes_eq_sum, (hperm.map _).sum_eq, entriesBytes_eq_sum]
        rfl
      apply (ih more after hnodesLe (OrderedMap.emplace_ascending hascending hemplace)
        hmore).mono
      intro ⟨result, last⟩ ⟨hresult, hlast, hbytes, hresultAscending, hmem⟩
      dsimp only at hresult hlast hbytes hresultAscending hmem ⊢
      exact ⟨by omega, hlast, by omega, hresultAscending, hmem⟩

end Loops

/-- A value without parts takes its tag and the bytes after it. -/
theorem accepted_scalar {limits : ValueLimits} {depth size : ℕ} {before start after : Decoder}
    {value : Value} (hbefore : before.nodes < limits.maxNodes.toNat)
    (hdepth : depth ≤ limits.maxDepth.toNat)
    (hstart : Took 1 { before with nodes := before.nodes + 1 } start)
    (htook : Took size start after)
    (hvalue : value.nodes = 1 ∧ value.depth = 0 ∧ value.encodedBytes = size + 1 ∧
      value.Ordered) :
    Accepted limits depth before value after := by
  obtain ⟨hstartLength, hstartNodes⟩ := hstart
  obtain ⟨hlength, hnodes⟩ := htook
  obtain ⟨hone, hzero, hsize, hordered⟩ := hvalue
  dsimp only at hstartLength hstartNodes
  exact ⟨by omega, by omega, by omega, by omega, hordered⟩

/-- **A value is accepted within the limits.** -/
theorem decode_yields (limits : ValueLimits) (depth : ℕ) (decoder : Decoder) :
    Yields (decode limits depth decoder) fun result =>
      Accepted limits depth decoder result.1 result.2 := by
  induction h : limits.maxDepth.toNat + 1 - depth using Nat.strong_induction_on
    generalizing depth decoder with
  | _ levels ih =>
    unfold decode
    apply (Yields.of_refuse _).bind
    intro _ hnodes
    have hbefore : decoder.nodes < limits.maxNodes.toNat := Nat.lt_of_not_le hnodes
    split
    · exact fun h => nomatch h
    rename_i hnotDeep
    have hdepth : depth ≤ limits.maxDepth.toNat := Nat.le_of_not_lt hnotDeep
    apply (byte_yields _).bind
    intro ⟨tag, start⟩ hstart
    have helement : ∀ decoder, Yields (decode limits (depth + 1) decoder) fun result =>
        Accepted limits (depth + 1) decoder result.1 result.2 :=
      fun decoder => ih _ (by omega) (depth + 1) decoder rfl
    dsimp only at hstart ⊢
    obtain ⟨hstartLength, hstartNodes⟩ := id hstart
    dsimp only at hstartLength hstartNodes
    unfold decodeTagged
    split
    case h_1 =>
      exact accepted_scalar hbefore hdepth hstart ⟨rfl, rfl⟩ ⟨rfl, rfl, rfl, trivial⟩
    case h_2 =>
      apply (integer_yields start).bind
      intro ⟨value, after⟩ htook
      exact accepted_scalar hbefore hdepth hstart htook ⟨rfl, rfl, rfl, trivial⟩
    case h_3 =>
      apply (integer_yields start).bind
      intro ⟨value, after⟩ htook
      apply (Yields.of_refuse _).bind
      intro _ _
      exact accepted_scalar hbefore hdepth hstart htook ⟨rfl, rfl, rfl, trivial⟩
    case h_4 =>
      apply (byte_yields start).bind
      intro ⟨value, after⟩ htook
      apply (Yields.of_refuse _).bind
      intro _ _
      exact accepted_scalar hbefore hdepth hstart htook ⟨rfl, rfl, rfl, trivial⟩
    case h_5 =>
      apply (bytes_yields start).bind
      intro ⟨value, after⟩ htook
      exact accepted_scalar hbefore hdepth hstart htook
        ⟨rfl, rfl, by simp only [Value.encodedBytes]; omega, trivial⟩
    case h_6 =>
      apply (bytes_yields start).bind
      intro ⟨value, after⟩ htook
      exact accepted_scalar hbefore hdepth hstart htook
        ⟨rfl, rfl, by simp only [Value.encodedBytes]; omega, trivial⟩
    case h_7 =>
      apply (count_yields start).bind
      intro ⟨size, counted⟩ ⟨⟨hlength, hcounted⟩, _⟩
      dsimp only at hlength hcounted ⊢
      apply (decodeValues_yields helement size [] counted (by omega) (by simp)).bind
      intro ⟨values, after⟩ ⟨hnodesSum, hnodesLe, hbytes, hvalues⟩
      dsimp only [valuesNodes, valuesBytes] at hnodesSum hnodesLe hbytes hvalues
      have hdepths : valuesDepth values ≤ limits.maxDepth.toNat - depth :=
        valuesDepth_le.mpr fun value hvalue => by
          have := (hvalues value hvalue).1
          omega
      show Accepted limits depth decoder (.array values) after
      exact ⟨by simp only [Value.nodes]; omega, hnodesLe, by simp only [Value.depth]; omega,
        by simp only [Value.encodedBytes]; omega,
        valuesOrdered_iff.mpr fun value hvalue => (hvalues value hvalue).2⟩
    case h_8 =>
      apply (count_yields start).bind
      intro ⟨size, counted⟩ ⟨⟨hlength, hcounted⟩, _⟩
      dsimp only at hlength hcounted ⊢
      apply (decodeEntries_yields helement size [] counted (by omega) List.Pairwise.nil
        (by simp)).bind
      intro ⟨entries, after⟩ ⟨hnodesSum, hnodesLe, hbytes, hascending, hentries⟩
      dsimp only [entriesNodes, entriesBytes] at hnodesSum hnodesLe hbytes hascending hentries
      have hdepths : entriesDepth entries ≤ limits.maxDepth.toNat - depth :=
        entriesDepth_le.mpr fun entry hentry => by
          have := (hentries entry hentry).1
          omega
      show Accepted limits depth decoder (.object entries) after
      exact ⟨by simp only [Value.nodes]; omega, hnodesLe, by simp only [Value.depth]; omega,
        by simp only [Value.encodedBytes]; omega,
        hascending, entriesOrdered_iff.mpr fun entry hentry => (hentries entry hentry).2⟩
    case h_9 => exact fun h => nomatch h

end Decoder

/-! ### What the encoder writes -/

namespace Encoder

variable {limits : ValueLimits} {encoder after : Encoder}

/-- The encoder has appended bytes, within its limit, and counted `nodes` values. -/
def Appended (limits : ValueLimits) (bytes : List UInt8) (nodes : ℕ)
    (before after : Encoder) : Prop :=
  after.result = before.result ++ bytes ∧ after.nodes = before.nodes + nodes ∧
    (before.result.length ≤ limits.maxBytes.toNat → after.result.length ≤ limits.maxBytes.toNat)

theorem Appended.trans {first second : List UInt8} {m n : ℕ} {middle : Encoder}
    (h : Appended limits first m encoder middle) (h' : Appended limits second n middle after) :
    Appended limits (first ++ second) (m + n) encoder after := by
  obtain ⟨hresult, hnodes, hlength⟩ := h
  obtain ⟨hresult', hnodes', hlength'⟩ := h'
  refine ⟨?_, by omega, hlength' ∘ hlength⟩
  rw [hresult', hresult, List.append_assoc]

theorem byte_appended {value : UInt8} (h : encoder.byte limits value = .ok after) :
    Appended limits [value] 0 encoder after := by
  obtain ⟨hlimit, hnext⟩ := invalid_of_ok h
  cases hnext
  refine ⟨rfl, rfl, fun _ => ?_⟩
  show (encoder.result ++ [value]).length ≤ _
  rw [List.length_append, List.length_singleton]
  omega

theorem integerFrom_appended {value : UInt64} {n i : ℕ} (hi : i + n ≤ 8)
    (h : integerFrom limits value n i encoder = .ok after) :
    Appended limits (digits n (value.toNat / 256 ^ i)) 0 encoder after := by
  induction n generalizing i encoder with
  | zero =>
    cases h
    exact ⟨(List.append_nil _).symm, rfl, id⟩
  | succ n ih =>
    obtain ⟨middle, hbyte, hrest⟩ := bind_eq_ok.mp h
    rw [shiftRight_toUInt8 value (by omega)] at hbyte
    have hboth := (byte_appended hbyte).trans (ih (by omega) hrest)
    rwa [Nat.pow_succ, ← Nat.div_div_eq_div_mul] at hboth

theorem integer_appended {value : UInt64} (h : encoder.integer limits value = .ok after) :
    Appended limits (digits 8 value.toNat) 0 encoder after := by
  have := integerFrom_appended (by omega) h
  rwa [Nat.pow_zero, Nat.div_one] at this

theorem bytes_appended {value : List UInt8} (h : encoder.bytes limits value = .ok after) :
    Appended limits (digits 8 (UInt64.ofNat value.length).toNat ++ value) 0
      encoder after := by
  obtain ⟨middle, hsize, hrest⟩ := bind_eq_ok.mp h
  obtain ⟨hlimit, hnext⟩ := invalid_of_ok hrest
  cases hnext
  have hvalue : Appended limits value 0 middle { middle with result := middle.result ++ value } := by
    refine ⟨rfl, rfl, fun hlength => ?_⟩
    show (middle.result ++ value).length ≤ _
    rw [List.length_append]
    omega
  exact (integer_appended hsize).trans hvalue

theorem start_appended {index depth : ℕ} (h : encoder.start limits index depth = .ok after) :
    encoder.nodes < limits.maxNodes.toNat ∧ depth ≤ limits.maxDepth.toNat ∧
      after.result.length ≤ limits.maxBytes.toNat ∧
      Appended limits [UInt8.ofNat index] 1 encoder after := by
  obtain ⟨hnodes, hdepth⟩ := invalid_of_ok h
  obtain ⟨hdepth, hbyte⟩ := invalid_of_ok hdepth
  obtain ⟨hresult, hcount, hlength⟩ := byte_appended hbyte
  have hroom : encoder.result.length < limits.maxBytes.toNat :=
    Nat.lt_of_not_le (invalid_of_ok hbyte).1
  exact ⟨by omega, by omega, hlength (Nat.le_of_lt hroom), hresult, hcount, hlength⟩

/-- What is appended to a result within its limit is short. -/
theorem Appended.length_lt {written : List UInt8} {n : ℕ}
    (h : Appended limits written n encoder after)
    (hbefore : encoder.result.length ≤ limits.maxBytes.toNat) : written.length < 2 ^ 64 := by
  obtain ⟨hresult, -, hlength⟩ := h
  have hafter := hlength hbefore
  have hmax := limits.maxBytes.toNat_lt
  rw [hresult, List.length_append] at hafter
  omega

end Encoder

/-! ### Decoding what was encoded -/

namespace Decoder

theorem integer_digits (value : UInt64) (rest : List UInt8) (nodes : ℕ) :
    integer ⟨digits 8 value.toNat ++ rest, nodes⟩ = .ok (value, ⟨rest, nodes⟩) := by
  rw [integer_eq _ rest nodes (digits_length 8 _),
    number_digits_of_lt value.toNat_lt, UInt64.ofNat_toNat]

theorem count_digits {size : ℕ} {rest : List UInt8} (hsize : size ≤ rest.length)
    (hfits : size < 2 ^ 64) (nodes : ℕ) :
    count ⟨digits 8 (UInt64.ofNat size).toNat ++ rest, nodes⟩ =
      .ok (size, ⟨rest, nodes⟩) := by
  have htoNat : (UInt64.ofNat size).toNat = size := UInt64.toNat_ofNat_of_lt hfits
  rw [count_eq (UInt64.ofNat size) _ rest nodes (digits_length 8 _)
    (by rw [number_digits_of_lt (UInt64.toNat_lt _), UInt64.ofNat_toNat])
    (by rw [htoNat]; exact hsize), htoNat]

theorem bytes_digits {value : List UInt8} (hfits : value.length < 2 ^ 64) (rest : List UInt8)
    (nodes : ℕ) :
    bytes ⟨digits 8 (UInt64.ofNat value.length).toNat ++ value ++ rest, nodes⟩ =
      .ok (value, ⟨rest, nodes⟩) := by
  have hlength : value.length ≤ (value ++ rest).length := by
    rw [List.length_append]
    omega
  unfold bytes
  rw [List.append_assoc, count_digits hlength hfits]
  show (first (value ++ rest) value.length >>= _) = _
  rw [first, if_pos hlength, List.take_left]
  show (subspan (value ++ rest) value.length >>= _) = _
  rw [subspan, if_pos hlength, List.drop_left]
  rfl

theorem decode_tag {limits : ValueLimits} {depth nodes : ℕ}
    (hnodes : nodes < limits.maxNodes.toNat) (hdepth : depth ≤ limits.maxDepth.toNat)
    (tag : UInt8) (rest : List UInt8) :
    decode limits depth ⟨tag :: rest, nodes⟩ =
      decodeTagged (decode limits (depth + 1)) tag ⟨rest, nodes + 1⟩ := by
  rw [decode, refuse_of_not (Nat.not_le.mpr hnodes)]
  show (if _h : limits.maxDepth.toNat < depth then _ else _) = _
  rw [dif_neg (Nat.not_lt.mpr hdepth)]
  rfl

end Decoder

variable {limits : ValueLimits}

/-- A value the encoder has appended bytes for: the decoder takes them off again. -/
def Decodes (limits : ValueLimits) (depth : ℕ) (value : Value) (before after : Encoder) : Prop :=
  ∃ written nodes, Encoder.Appended limits written nodes before after ∧ 0 < written.length ∧
    ∀ rest, Decoder.decode limits depth ⟨written ++ rest, before.nodes⟩ =
      .ok (value, ⟨rest, after.nodes⟩)

/-- A value that is its tag and some bytes that only its kind of value looks at. -/
theorem decodes_tagged {index depth : ℕ} {value : Value} {before start after : Encoder}
    (hstart : before.start limits index depth = .ok start) (written : List UInt8) (n : ℕ)
    (happended : Encoder.Appended limits written n start after)
    (hread : ∀ rest, Decoder.decodeTagged (Decoder.decode limits (depth + 1))
      (UInt8.ofNat index) ⟨written ++ rest, start.nodes⟩ = .ok (value, ⟨rest, after.nodes⟩)) :
    Decodes limits depth value before after := by
  obtain ⟨hnodes, hdepth, -, htag⟩ := start_appended hstart
  refine ⟨[UInt8.ofNat index] ++ written, 1 + n, htag.trans happended, by simp, fun rest => ?_⟩
  rw [List.append_assoc]
  show Decoder.decode limits depth ⟨UInt8.ofNat index :: (written ++ rest), _⟩ = _
  rw [Decoder.decode_tag hnodes hdepth, ← htag.2.1, hread rest]

mutual

/-- **What the encoder appends for a value decodes to it.** -/
theorem decodes_encode (value : Value) (hvalue : value.Ordered) (depth : ℕ)
    (before after : Encoder) (h : encode limits value depth before = .ok after) :
    Decodes limits depth value before after := by
  cases value with
  | null =>
    exact decodes_tagged h [] 0 ⟨(List.append_nil _).symm, rfl, id⟩ fun rest => rfl
  | int64 value =>
    obtain ⟨start, hstart, hinteger⟩ := bind_eq_ok.mp h
    have happended := integer_appended hinteger
    refine decodes_tagged hstart _ _ happended fun rest => ?_
    show (Decoder.integer _ >>= _) = _
    rw [Decoder.integer_digits, happended.2.1]
    rfl
  | double value =>
    obtain ⟨start, hstart, hrest⟩ := bind_eq_ok.mp h
    obtain ⟨hfinite, hinteger⟩ := invalid_of_ok hrest
    have happended := integer_appended hinteger
    refine decodes_tagged hstart _ _ happended fun rest => ?_
    show (Decoder.integer _ >>= _) = _
    rw [Decoder.integer_digits, happended.2.1]
    show (refuse ((Float.ofBits value.toBits).isFinite = false) _ >>= _) = _
    rw [Float.ofBits_toBits, refuse_of_not hfinite]
    rfl
  | bool value =>
    obtain ⟨start, hstart, hbyte⟩ := bind_eq_ok.mp h
    have happended := byte_appended hbyte
    refine decodes_tagged hstart _ _ happended fun rest => ?_
    rw [happended.2.1]
    cases value <;> rfl
  | string value =>
    obtain ⟨start, hstart, hbytes⟩ := bind_eq_ok.mp h
    have happended := bytes_appended hbytes
    have hlength := happended.length_lt (start_appended hstart).2.2.1
    rw [List.length_append] at hlength
    refine decodes_tagged hstart _ _ happended fun rest => ?_
    show (Decoder.bytes _ >>= _) = _
    rw [Decoder.bytes_digits (by omega), happended.2.1]
    rfl
  | bytes value =>
    obtain ⟨start, hstart, hbytes⟩ := bind_eq_ok.mp h
    have happended := bytes_appended hbytes
    have hlength := happended.length_lt (start_appended hstart).2.2.1
    rw [List.length_append] at hlength
    refine decodes_tagged hstart _ _ happended fun rest => ?_
    show (Decoder.bytes _ >>= _) = _
    rw [Decoder.bytes_digits (by omega), happended.2.1]
    rfl
  | array values =>
    obtain ⟨start, hstart, hrest⟩ := bind_eq_ok.mp h
    obtain ⟨sized, hsize, hvalues⟩ := bind_eq_ok.mp hrest
    have hsized := integer_appended hsize
    obtain ⟨written, n, hwritten, hlength, hread⟩ :=
      decodes_encodeValues values hvalue (depth + 1) sized after hvalues
    have hfits := hwritten.length_lt (hsized.2.2 (start_appended hstart).2.2.1)
    refine decodes_tagged hstart _ _ (hsized.trans hwritten) fun rest => ?_
    have hcount : values.length ≤ (written ++ rest).length := by
      rw [List.length_append]
      omega
    rw [List.append_assoc]
    show (Decoder.count _ >>= _) = _
    rw [Decoder.count_digits hcount (by omega), ← Nat.add_zero start.nodes, ← hsized.2.1]
    show (Decoder.decodeValues _ values.length [] _ >>= _) = _
    rw [hread]
    rfl
  | object entries =>
    obtain ⟨start, hstart, hrest⟩ := bind_eq_ok.mp h
    obtain ⟨sized, hsize, hentries⟩ := bind_eq_ok.mp hrest
    have hsized := integer_appended hsize
    obtain ⟨written, n, hwritten, hlength, hread⟩ :=
      decodes_encodeEntries entries hvalue.2 (depth + 1) sized after hentries
        (hsized.2.2 (start_appended hstart).2.2.1)
    have hfits := hwritten.length_lt (hsized.2.2 (start_appended hstart).2.2.1)
    refine decodes_tagged hstart _ _ (hsized.trans hwritten) fun rest => ?_
    have hcount : entries.length ≤ (written ++ rest).length := by
      rw [List.length_append]
      omega
    rw [List.append_assoc]
    show (Decoder.count _ >>= _) = _
    rw [Decoder.count_digits hcount (by omega), ← Nat.add_zero start.nodes, ← hsized.2.1]
    show (Decoder.decodeEntries _ entries.length [] _ >>= _) = _
    rw [hread [] rest hvalue.1]
    rfl

theorem decodes_encodeValues (values : List Value) (hvalues : ValuesOrdered values) (depth : ℕ)
    (before after : Encoder)
    (h : encodeValues limits values depth before = .ok after) :
    ∃ written n, Encoder.Appended limits written n before after ∧
      values.length ≤ written.length ∧ ∀ others rest,
        Decoder.decodeValues (Decoder.decode limits depth) values.length others
          ⟨written ++ rest, before.nodes⟩ = .ok (others ++ values, ⟨rest, after.nodes⟩) := by
  cases values with
  | nil =>
    cases h
    refine ⟨[], 0, ⟨(List.append_nil _).symm, rfl, id⟩, Nat.le_refl _, fun others rest => ?_⟩
    rw [List.append_nil]
    rfl
  | cons value values =>
    obtain ⟨middle, hfirst, hrest⟩ := bind_eq_ok.mp h
    obtain ⟨written, n, hwritten, hpositive, hread⟩ :=
      decodes_encode value hvalues.1 depth before middle hfirst
    obtain ⟨others, m, hothers, hlength, hreads⟩ :=
      decodes_encodeValues values hvalues.2 depth middle after hrest
    refine ⟨written ++ others, n + m, hwritten.trans hothers, ?_, fun earlier rest => ?_⟩
    · rw [List.length_append, List.length_cons]
      omega
    · rw [List.append_assoc]
      show (Decoder.decode _ _ _ >>= _) = _
      rw [hread]
      show Decoder.decodeValues _ values.length (earlier ++ [value]) _ = _
      rw [hreads, List.append_assoc]
      rfl

theorem decodes_encodeEntries (entries : List (Text × Value)) (hentries : EntriesOrdered entries)
    (depth : ℕ) (before after : Encoder)
    (h : encodeEntries limits entries depth before = .ok after)
    (hbefore : before.result.length ≤ limits.maxBytes.toNat) :
    ∃ written n, Encoder.Appended limits written n before after ∧
      entries.length ≤ written.length ∧ ∀ others rest,
        OrderedMap.Ascending (others ++ entries) →
        Decoder.decodeEntries (Decoder.decode limits depth) entries.length others
          ⟨written ++ rest, before.nodes⟩ = .ok (others ++ entries, ⟨rest, after.nodes⟩) := by
  cases entries with
  | nil =>
    cases h
    refine ⟨[], 0, ⟨(List.append_nil _).symm, rfl, id⟩, Nat.le_refl _, fun others rest _ => ?_⟩
    rw [List.append_nil]
    rfl
  | cons entry entries =>
    obtain ⟨key, value⟩ := entry
    obtain ⟨named, hkey, hfollowing⟩ := bind_eq_ok.mp h
    obtain ⟨middle, hfirst, hrest⟩ := bind_eq_ok.mp hfollowing
    have hnamed := bytes_appended hkey
    have hfits := hnamed.length_lt hbefore
    obtain ⟨written, n, hwritten, hpositive, hread⟩ :=
      decodes_encode value hentries.1 depth named middle hfirst
    obtain ⟨others, m, hothers, hlength, hreads⟩ :=
      decodes_encodeEntries entries hentries.2 depth middle after hrest
        (hwritten.2.2 (hnamed.2.2 hbefore))
    refine ⟨_, _, (hnamed.trans hwritten).trans hothers, ?_, fun earlier rest hascending => ?_⟩
    · simp only [List.length_append, List.length_cons]
      omega
    · have habove : ∀ entry ∈ earlier, entry.1 < key := fun entry hentry =>
        (List.pairwise_append.mp hascending).2.2 entry hentry (key, value) List.mem_cons_self
      rw [List.length_append] at hfits
      simp only [List.append_assoc]
      show (Decoder.bytes _ >>= _) = _
      rw [← List.append_assoc, Decoder.bytes_digits (by omega), ← Nat.add_zero before.nodes,
        ← hnamed.2.1]
      show (Decoder.decode _ _ _ >>= _) = _
      rw [hread]
      show (match OrderedMap.emplace key value earlier with
        | none => _
        | some values => _) = _
      rw [OrderedMap.emplace_of_above value habove]
      show Decoder.decodeEntries _ entries.length (earlier ++ [(key, value)]) _ = _
      rw [hreads _ rest (by rwa [List.append_assoc]), List.append_assoc]
      rfl

end

/-! ### The whole codec -/

theorem decodeValue_of_encodeValue {value : Value} {bytes : List UInt8} (hvalue : value.Ordered)
    (h : encodeValue value limits = .ok bytes) : decodeValue bytes limits = .ok value := by
  obtain ⟨after, hencode, hbytes⟩ := bind_eq_ok.mp h
  cases hbytes
  obtain ⟨written, n, ⟨hresult, -, hlength⟩, -, hread⟩ :=
    decodes_encode value hvalue 0 {} after hencode
  have hall := hread []
  rw [List.append_nil] at hall
  have hwritten : after.result = written := hresult
  have hfits : after.result.length ≤ limits.maxBytes.toNat := hlength (Nat.zero_le _)
  rw [hwritten] at hfits ⊢
  unfold decodeValue
  rw [refuse_of_not (Nat.not_lt.mpr hfits)]
  show (Decoder.decode limits 0 _ >>= _) = _
  rw [hall]
  rfl

theorem decodeValue_yields (bytes : List UInt8) (limits : ValueLimits) :
    Yields (decodeValue bytes limits) fun value =>
      value.depth ≤ limits.maxDepth.toNat ∧ value.nodes ≤ limits.maxNodes.toNat ∧
        value.encodedBytes = bytes.length ∧ bytes.length ≤ limits.maxBytes.toNat ∧
        value.Ordered := by
  apply (Yields.of_refuse _).bind
  intro _ hfits
  apply (Decoder.decode_yields limits 0 ⟨bytes, 0⟩).bind
  intro ⟨value, after⟩ ⟨hnodes, hnodesLe, hdepth, htaken, hordered⟩
  apply (Yields.of_refuse _).bind
  intro _ hrest
  have hempty : after.remaining = [] := by
    by_contra hne
    exact hrest hne
  dsimp only at hnodes hnodesLe hdepth htaken hordered
  rw [hempty, List.length_nil] at htaken
  show value.depth ≤ _ ∧ value.nodes ≤ _ ∧ _
  exact ⟨by omega, by omega, by omega, Nat.le_of_not_lt hfits, hordered⟩

/-- **Encodings decode to their value, and what is decoded keeps to the limits.**  Decoding
ends on every input, and never for want of a byte that was not checked to be there; an
accepted value takes exactly the bytes of the input. -/
theorem decodeValue_exact (limits : ValueLimits) :
    (∀ value bytes, value.Ordered → encodeValue value limits = .ok bytes →
      decodeValue bytes limits = .ok value) ∧
    (∀ bytes, decodeValue bytes limits ≠ .error .outOfBounds) ∧
    ∀ bytes value, decodeValue bytes limits = .ok value →
      value.depth ≤ limits.maxDepth.toNat ∧ value.nodes ≤ limits.maxNodes.toNat ∧
        value.encodedBytes = bytes.length ∧ bytes.length ≤ limits.maxBytes.toNat ∧
        value.Ordered := by
  refine ⟨fun value bytes hvalue h => decodeValue_of_encodeValue hvalue h, fun bytes => ?_,
    fun bytes value h => ?_⟩
  · exact (decodeValue_yields bytes limits).not_outOfBounds
  · exact (decodeValue_yields bytes limits).of_ok h

/-- An object holding an array comes back from its 38 bytes. -/
theorem decodeValue_exact_nested :
    decodeValue
      [7, 1, 0, 0, 0, 0, 0, 0, 0, 1, 0, 0, 0, 0, 0, 0, 0, 97,
        6, 2, 0, 0, 0, 0, 0, 0, 0, 0, 1, 255, 255, 255, 255, 255, 255, 255, 255] {} =
      .ok (.object [([97], .array [.null, .int64 (-1)])]) := by
  refine (decodeValue_exact {}).1 _ _ ?_ ?_
  · exact ⟨List.pairwise_singleton _ _, ⟨trivial, trivial, trivial⟩, trivial⟩
  · decide +kernel

end ProtoScope.Data
