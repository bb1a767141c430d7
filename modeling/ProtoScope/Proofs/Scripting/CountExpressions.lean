/-
Count expressions, exactly.

The evaluator works on 64-bit words and guards each operation by comparisons that cannot
overflow themselves.  `exactCount` says what it is for: arithmetic on integers, where a
result that is not an `int64` is a fault, as a missing field or a zero divisor is.  The
two agree on every expression the loader accepts, down to the text of the error.
-/
import ProtoScope.Scripting.StreamSchema

namespace ProtoScope.Scripting

/-! ### Guarded arithmetic -/

/-- A guard that fires exactly when the result is no word computes the exact result. -/
theorem guarded_eq {guard : Prop} [Decidable guard] {result : Int}
    (h : guard ↔ ¬InInt64 result) :
    (if guard then none else some result) = if InInt64 result then some result else none := by
  by_cases hin : InInt64 result
  · rw [if_pos hin, if_neg fun hguard => h.mp hguard hin]
  · rw [if_neg hin, if_pos (h.mpr hin)]

theorem checkedSubtractInt64_eq {left right : Int} (hleft : InInt64 left) (hright : InInt64 right) :
    checkedSubtractInt64 left right
      = if InInt64 (left - right) then some (left - right) else none := by
  refine guarded_eq ?_
  unfold InInt64 int64Min int64Max at *
  omega

/-- A bound divided by a positive factor is a bound on the product. -/
theorem tdiv_lt_iff {bound factor other : Int} (hbound : 0 ≤ bound) (hfactor : 0 < factor) :
    bound.tdiv factor < other ↔ bound < other * factor := by
  rw [Int.tdiv_eq_ediv_of_nonneg hbound]
  exact Int.ediv_lt_iff_lt_mul hfactor

theorem lt_neg_tdiv_iff {bound factor other : Int} (hbound : 0 ≤ bound) (hfactor : 0 < factor) :
    other < (-bound).tdiv factor ↔ other * factor < -bound := by
  rw [Int.neg_tdiv, ← neg_neg other, neg_lt_neg_iff, tdiv_lt_iff hbound hfactor]
  constructor <;> intro h <;> linarith

theorem lt_tdiv_neg_iff {bound factor other : Int} (hbound : 0 ≤ bound) (hfactor : factor < 0) :
    other < bound.tdiv factor ↔ bound < other * factor := by
  have hpos : 0 < -factor := by omega
  rw [← neg_neg factor, Int.tdiv_neg, ← neg_neg other, neg_lt_neg_iff, tdiv_lt_iff hbound hpos]
  constructor <;> intro h <;> linarith

theorem checkedMultiplyInt64_eq (left right : Int) :
    checkedMultiplyInt64 left right
      = if InInt64 (left * right) then some (left * right) else none := by
  have hmin : int64Min = -(2 ^ 63) := rfl
  have hmax : (0 : Int) ≤ int64Max := by decide
  have hpow : (0 : Int) ≤ 2 ^ 63 := by decide
  have hzero : InInt64 0 := by decide
  unfold checkedMultiplyInt64
  rcases lt_trichotomy left 0 with hl | rfl | hl
  · rw [if_neg (by omega), if_pos hl]
    refine guarded_eq ?_
    rcases lt_trichotomy right 0 with hr | rfl | hr
    · have hprod : 0 < left * right := Int.mul_pos_of_neg_of_neg hl hr
      rw [lt_tdiv_neg_iff hmax hr]
      unfold InInt64
      omega
    · simp [hzero]
    · have hprod : left * right < 0 := Int.mul_neg_of_neg_of_pos hl hr
      rw [hmin, lt_neg_tdiv_iff hpow hr]
      unfold InInt64
      omega
  · simp [hzero]
  · rw [if_pos hl]
    refine guarded_eq ?_
    rcases lt_trichotomy right 0 with hr | rfl | hr
    · have hprod : left * right < 0 := Int.mul_neg_of_pos_of_neg hl hr
      rw [hmin, lt_neg_tdiv_iff hpow hl, mul_comm right left]
      unfold InInt64
      omega
    · simp [hzero]
    · have hprod : 0 < left * right := Int.mul_pos hl hr
      rw [tdiv_lt_iff hmax hr]
      unfold InInt64
      omega

/-- The truncated quotient of two words is a word, but for the one quotient that is not. -/
theorem inInt64_tdiv {value argument : Int} (hvalue : InInt64 value) (hargument : argument ≠ 0) :
    InInt64 (value.tdiv argument) ↔ ¬(value = int64Min ∧ argument = -1) := by
  constructor
  · rintro h ⟨rfl, rfl⟩
    revert h
    decide
  · intro h
    by_cases hone : argument = 1
    · rwa [hone, Int.tdiv_one]
    have habs := Int.natAbs_tdiv_le_natAbs value argument
    -- Only the least word could reach past the other end, and two halves it.
    have hmin : value = int64Min → (value.tdiv argument).natAbs < 2 ^ 63 := by
      rintro rfl
      have hne : argument ≠ -1 := fun hminus => h ⟨rfl, hminus⟩
      rw [Int.natAbs_tdiv]
      exact Nat.div_lt_self (by decide) (by omega)
    unfold InInt64 int64Min int64Max at *
    omega

/-! ### The exact value -/

/-- Why an expression has no count. -/
inductive CountFault where
  | missingField (name : String)
  | notInteger (name : String)
  | zeroDivisor
  /-- the result of this operation is no `int64` -/
  | overflow (operation : String)
  /-- `remaining` from a start past its limit -/
  | pastLimit
  /-- no case matches and there is no default -/
  | unmatched
  | negative
deriving DecidableEq

def CountFault.message : CountFault → String
  | .missingField name => "引用字段不存在: " ++ name
  | .notInteger name => "引用字段不是整数: " ++ name
  | .zeroDivisor => "div.by 不能为 0"
  | .overflow operation => operation ++ " count 表达式溢出"
  | .pastLimit => "remaining 起点超出帧边界"
  | .unmatched => "case 未匹配且没有 default"
  | .negative => "count 表达式结果不能为负数"

/-- The exact result, if it is an `int64`. -/
def fit (operation : String) (result : Int) : Except CountFault Int :=
  if InInt64 result then .ok result else .error (.overflow operation)

def exactField (parsed : StreamFieldMap) (name : String) : Except CountFault Int :=
  match parsed.lookup name with
  | none => .error (.missingField name)
  | some (.integer value) => .ok value
  | some _ => .error (.notInteger name)

/-- How many units lie between the field's start and the limit. -/
def exactRemaining (context : StreamCountEvaluationContext) (unit : Int) (excludeCrc : Bool) :
    Except CountFault Int :=
  let limit : Int := if excludeCrc then context.readableLimit else context.frameLength
  if limit < context.fieldStart then .error .pastLimit
  else .ok ((limit - context.fieldStart) / if 0 < unit then unit else context.fieldWidth)

mutual

/-- The value of an expression, in exact arithmetic. -/
def exactCount (context : StreamCountEvaluationContext) (onNull : Except CountFault Int) :
    StreamCountExpression → Except CountFault Int
  | .null => onNull
  | .node op value argument fieldName excludeCrc operand argumentExpression thenExpression
      elseExpression defaultExpression cases =>
    match op with
    | .constant => .ok value
    | .field => exactField context.parsed fieldName
    | .div => do
      let value ← exactCount context (.error .unmatched) operand
      let argument ← exactCount context (.ok argument) argumentExpression
      if argument = 0 then .error .zeroDivisor else fit "div" (value.tdiv argument)
    | .sub => do
      let value ← exactCount context (.error .unmatched) operand
      fit "sub" (value - argument)
    | .mul => do
      let value ← exactCount context (.error .unmatched) operand
      let argument ← exactCount context (.ok argument) argumentExpression
      fit "mul" (value * argument)
    | .remaining => exactRemaining context argument excludeCrc
    | .ifFlag => do
      let value ← exactField context.parsed fieldName
      if toUInt64 value &&& toUInt64 argument ≠ 0 then
        exactCount context (.error .unmatched) thenExpression
      else exactCount context (.error .unmatched) elseExpression
    | .case => do
      let value ← exactField context.parsed fieldName
      (exactCases context value cases).getD
        (exactCount context (.error .unmatched) defaultExpression)
    | .bitCount => do
      let value ← exactCount context (.error .unmatched) operand
      .ok (popcount (toUInt64 value))

def exactCases (context : StreamCountEvaluationContext) (value : Int) :
    StreamCountCases → Option (Except CountFault Int)
  | .nil => none
  | .cons caseValue expression rest =>
    if caseValue = value then some (exactCount context (.error .unmatched) expression)
    else exactCases context value rest

end

/-! ### The evaluator computes it -/

/-- What holds where a count is resolved: integers are words, and the frame has a length. -/
structure StreamCountEvaluationContext.Sound (context : StreamCountEvaluationContext) : Prop where
  scalars : ∀ name value, context.parsed.lookup name = some (.integer value) → InInt64 value
  limit_le : context.readableLimit ≤ context.frameLength
  length_le : (context.frameLength : Int) ≤ int64Max
  width_pos : 0 < context.fieldWidth

/-- The same word, or the text of the same fault. -/
def Agrees (code : Except String Int) (exact : Except CountFault Int) : Prop :=
  code = exact.mapError CountFault.message ∧ ∀ value, exact = .ok value → InInt64 value

theorem agrees_error {fault : CountFault} {text : String} (h : text = fault.message) :
    Agrees (.error text) (.error fault) :=
  ⟨congrArg _ h, fun value hvalue => by cases hvalue⟩

theorem agrees_ok {value : Int} (h : InInt64 value) : Agrees (.ok value) (.ok value) :=
  ⟨rfl, fun other hother => by cases hother; exact h⟩

theorem Agrees.bind {code : Except String Int} {exact : Except CountFault Int}
    {next : Int → Except String Int} {next' : Int → Except CountFault Int} (h : Agrees code exact)
    (hnext : ∀ value, InInt64 value → Agrees (next value) (next' value)) :
    Agrees (code >>= next) (exact >>= next') := by
  obtain ⟨rfl, hword⟩ := h
  cases exact with
  | error fault => exact agrees_error rfl
  | ok value => exact hnext value (hword value rfl)

theorem agrees_subCount {value argument : Int} (hvalue : InInt64 value)
    (hargument : InInt64 argument) :
    Agrees (subCount value argument) (fit "sub" (value - argument)) := by
  unfold subCount fit
  rw [checkedSubtractInt64_eq hvalue hargument]
  by_cases hin : InInt64 (value - argument)
  · rw [if_pos hin, if_pos hin]
    exact agrees_ok hin
  · rw [if_neg hin, if_neg hin]
    exact agrees_error rfl

theorem agrees_mulCount (value argument : Int) :
    Agrees (mulCount value argument) (fit "mul" (value * argument)) := by
  unfold mulCount fit
  rw [checkedMultiplyInt64_eq]
  by_cases hin : InInt64 (value * argument)
  · rw [if_pos hin, if_pos hin]
    exact agrees_ok hin
  · rw [if_neg hin, if_neg hin]
    exact agrees_error rfl

theorem agrees_divCount {value argument : Int} (hvalue : InInt64 value) :
    Agrees (divCount value argument)
      (if argument = 0 then .error .zeroDivisor else fit "div" (value.tdiv argument)) := by
  unfold divCount fit
  by_cases hzero : argument = 0
  · rw [if_pos hzero, if_pos hzero]
    exact agrees_error rfl
  have hword := inInt64_tdiv hvalue hzero
  rw [if_neg hzero, if_neg hzero]
  by_cases hover : value = int64Min ∧ argument = -1
  · rw [if_pos hover, if_neg fun hin => hword.mp hin hover]
    exact agrees_error rfl
  · rw [if_neg hover, if_pos (hword.mpr hover)]
    exact agrees_ok (hword.mpr hover)

variable {context : StreamCountEvaluationContext}

theorem agrees_field (hcontext : context.Sound) (name : String) :
    Agrees (streamCountFieldValue context.parsed name) (exactField context.parsed name) := by
  unfold streamCountFieldValue exactField
  cases hlookup : context.parsed.lookup name with
  | none => exact agrees_error rfl
  | some field =>
    cases field with
    | integer value => exact agrees_ok (hcontext.scalars name value hlookup)
    | real value => exact agrees_error rfl
    | integers values => exact agrees_error rfl
    | reals values => exact agrees_error rfl
    | bytes values => exact agrees_error rfl

theorem toInt64_of_le {n : Nat} (h : (n : Int) ≤ int64Max) : toInt64 n = n := by
  unfold int64Max at h
  have hlt : n < 2 ^ 64 := by omega
  have hmod : (BitVec.ofNat 64 n).toNat = n := by
    rw [BitVec.toNat_ofNat, Nat.mod_eq_of_lt hlt]
  unfold toInt64
  rw [BitVec.toInt_eq_toNat_of_lt (by omega), hmod]

theorem agrees_remaining (hcontext : context.Sound) {argument : Int} (excludeCrc : Bool) :
    Agrees (evaluateRemainingCountExpression context argument excludeCrc)
      (exactRemaining context argument excludeCrc) := by
  have hlimit : (if excludeCrc then (context.readableLimit : Int) else context.frameLength)
      = ((if excludeCrc then context.readableLimit else context.frameLength : Nat) : Int) := by
    split <;> rfl
  have hunit : (if 0 < argument then argument else (context.fieldWidth : Int))
      = ((if 0 < argument then argument.toNat else context.fieldWidth : Nat) : Int) := by
    split
    · exact (Int.toNat_of_nonneg (by omega)).symm
    · rfl
  have hpos : (if 0 < argument then argument.toNat else context.fieldWidth) ≠ 0 := by
    have := hcontext.width_pos
    split <;> omega
  have hle : (if excludeCrc then context.readableLimit else context.frameLength)
      ≤ context.frameLength := by
    have := hcontext.limit_le
    split <;> omega
  unfold evaluateRemainingCountExpression exactRemaining
  rw [hlimit, hunit]
  simp only [if_neg hpos]
  generalize (if excludeCrc then context.readableLimit else context.frameLength) = limit at *
  generalize (if 0 < argument then argument.toNat else context.fieldWidth) = unit at *
  by_cases hpast : limit < context.fieldStart
  · rw [if_pos hpast, if_pos (by exact_mod_cast hpast)]
    exact agrees_error rfl
  · rw [if_neg hpast, if_neg (by exact_mod_cast hpast)]
    have hquotient : (limit - context.fieldStart) / unit ≤ context.frameLength :=
      (Nat.div_le_self _ _).trans (by omega)
    have hlength := hcontext.length_le
    rw [toInt64_of_le (by omega), ← Int.natCast_sub (by omega), ← Int.natCast_ediv]
    refine agrees_ok ?_
    generalize (limit - context.fieldStart) / unit = quotient at *
    unfold InInt64 int64Min
    omega

/-- Where a null pointer stands for a value: the divisor or factor given as a number. -/
def NullAgrees (context : StreamCountEvaluationContext) (expression : StreamCountExpression)
    (onNull : Except String Int) (onNull' : Except CountFault Int) : Prop :=
  Agrees (evaluateStreamCountExpression context onNull expression)
    (exactCount context onNull' expression)

theorem inInt64_popcount (word : BitVec 64) : InInt64 (popcount word) := by
  have hle : popcount word ≤ 64 := by
    simpa [popcount] using List.countP_le_length (p := fun bit => word.getLsbD bit)
      (l := List.range 64)
  unfold InInt64 int64Min int64Max
  omega

mutual

/-- **The evaluator is exact** on what the loader accepts. -/
theorem agrees_evaluate (hcontext : context.Sound) :
    ∀ expression : StreamCountExpression, expression.Loaded → ∀ onNull onNull',
      NullAgrees context expression onNull onNull'
  | .null, hloaded, _, _ => hloaded.elim
  | .node op value argument fieldName excludeCrc operand argumentExpression thenExpression
      elseExpression defaultExpression cases, hloaded, onNull, onNull' => by
    have hgiven : InInt64 argument → (argumentExpression = .null ∨ argumentExpression.Loaded) →
        NullAgrees context argumentExpression (.ok argument) (.ok argument) := by
      rintro hword (rfl | hexpression)
      · exact agrees_ok hword
      · exact agrees_evaluate hcontext argumentExpression hexpression _ _
    cases op with
    | constant => exact agrees_ok hloaded
    | field => exact agrees_field hcontext fieldName
    | div =>
      obtain ⟨hoperand, hword, hargument⟩ := hloaded
      refine (agrees_evaluate hcontext operand hoperand _ _).bind fun value hvalue => ?_
      exact (hgiven hword hargument).bind fun argument _ => agrees_divCount hvalue
    | sub =>
      obtain ⟨hoperand, hword⟩ := hloaded
      refine (agrees_evaluate hcontext operand hoperand _ _).bind fun value hvalue => ?_
      exact agrees_subCount hvalue hword
    | mul =>
      obtain ⟨hoperand, hword, hargument⟩ := hloaded
      refine (agrees_evaluate hcontext operand hoperand _ _).bind fun value _ => ?_
      exact (hgiven hword hargument).bind fun argument _ => agrees_mulCount value argument
    | remaining => exact agrees_remaining hcontext excludeCrc
    | ifFlag =>
      obtain ⟨-, hthen, helse⟩ := hloaded
      refine (agrees_field hcontext fieldName).bind fun value _ => ?_
      split
      · exact agrees_evaluate hcontext thenExpression hthen _ _
      · exact agrees_evaluate hcontext elseExpression helse _ _
    | case =>
      obtain ⟨hcases, hdefault⟩ := hloaded
      refine (agrees_field hcontext fieldName).bind fun value _ => ?_
      have hdefault : NullAgrees context defaultExpression
          (.error "case 未匹配且没有 default") (.error .unmatched) := by
        rcases hdefault with rfl | hdefault
        · exact agrees_error rfl
        · exact agrees_evaluate hcontext defaultExpression hdefault _ _
      exact agrees_evaluateCases hcontext cases hcases value hdefault
    | bitCount =>
      refine (agrees_evaluate hcontext operand hloaded _ _).bind fun value _ => ?_
      exact agrees_ok (inInt64_popcount _)

theorem agrees_evaluateCases (hcontext : context.Sound) :
    ∀ cases : StreamCountCases, cases.Loaded → ∀ (value : Int) {code : Except String Int}
      {exact : Except CountFault Int}, Agrees code exact →
      Agrees ((evaluateCases context value cases).getD code)
        ((exactCases context value cases).getD exact)
  | .nil, _, _, _, _, h => h
  | .cons caseValue expression rest, hloaded, value, code, exact, h => by
    obtain ⟨-, hexpression, hrest⟩ := hloaded
    unfold evaluateCases exactCases
    split
    · cases expression with
      | null => exact hexpression.elim
      | node op value argument fieldName excludeCrc operand argumentExpression thenExpression
          elseExpression defaultExpression cases =>
        exact agrees_evaluate hcontext _ hexpression (.error "") (.error .unmatched)
    · exact agrees_evaluateCases hcontext rest hrest value h

end

/-! ### The count of a field -/

def validCount (value : Int) : Except CountFault Nat :=
  if value < 0 then .error .negative else .ok value.toNat

/-- How many elements a field has, exactly. -/
def exactFieldCount (field : StreamFieldDefinition) (context : StreamCountEvaluationContext) :
    Except CountFault Nat :=
  match field.count.fixed, field.count.fieldName, field.count.expression with
  | some fixed, _, _ => .ok fixed
  | none, some fieldName, _ => do validCount (← exactField context.parsed fieldName)
  | none, none, .null => .ok 1
  | none, none, expression => do validCount (← exactCount context (.error .unmatched) expression)

/-- The texts of the faults: a count that is a field's name has texts of its own. -/
def StreamFieldDefinition.faultMessage (field : StreamFieldDefinition) : CountFault → String
  | .missingField name =>
    if field.count.fieldName.isSome then "引用字段不存在" else CountFault.message (.missingField name)
  | fault => if field.count.fieldName.isSome then "引用字段不是非负整数" else fault.message

theorem faultMessage_of_expression {field : StreamFieldDefinition}
    (h : field.count.fieldName = none) (fault : CountFault) :
    field.faultMessage fault = fault.message := by
  unfold StreamFieldDefinition.faultMessage
  cases fault <;> simp [h]

theorem resolveFieldCount_expression {field : StreamFieldDefinition}
    (hfixed : field.count.fixed = none) (hname : field.count.fieldName = none)
    (hexpression : field.count.expression.Loaded) {parsed : StreamFieldMap}
    {frameLength readableLimit fieldStart : Nat}
    (hcontext : StreamCountEvaluationContext.Sound
      ⟨parsed, frameLength, readableLimit, fieldStart, streamValueWidth field.type⟩) :
    resolveFieldCount field parsed frameLength readableLimit fieldStart =
      (exactFieldCount field
        ⟨parsed, frameLength, readableLimit, fieldStart, streamValueWidth field.type⟩).mapError
          field.faultMessage := by
  obtain ⟨heq, hword⟩ := agrees_evaluate hcontext field.count.expression hexpression (.error "")
    (.error .unmatched)
  have hmessage : field.faultMessage = CountFault.message :=
    funext (faultMessage_of_expression hname)
  rw [hmessage]
  unfold resolveFieldCount exactFieldCount
  cases hnode : field.count.expression with
  | null =>
    rw [hnode] at hexpression
    exact hexpression.elim
  | node op value argument fieldName excludeCrc operand argumentExpression thenExpression
      elseExpression defaultExpression cases =>
    rw [hnode] at heq hword
    simp only [hfixed, hname, heq]
    cases hexact : exactCount
        ⟨parsed, frameLength, readableLimit, fieldStart, streamValueWidth field.type⟩
        (.error .unmatched) (.node op value argument fieldName excludeCrc operand
          argumentExpression thenExpression elseExpression defaultExpression cases) with
    | error fault => rfl
    | ok count =>
      have hle := (hword count hexact).2
      unfold int64Max at hle
      have hsize : ¬ sizeMax < count.toNat := by
        unfold sizeMax
        omega
      simp only [Except.mapError, bind, Except.bind, validCount]
      by_cases hneg : count < 0
      · rw [if_pos hneg, if_pos hneg]
        rfl
      · rw [if_neg hneg, if_neg hneg, if_neg hsize]

/-- **A field's count is the exact one**, or the error says why there is none. -/
theorem resolveFieldCount_eq {field : StreamFieldDefinition} (hloaded : field.count.Loaded)
    {parsed : StreamFieldMap} {frameLength readableLimit fieldStart : Nat}
    (hcontext : StreamCountEvaluationContext.Sound
      ⟨parsed, frameLength, readableLimit, fieldStart, streamValueWidth field.type⟩) :
    resolveFieldCount field parsed frameLength readableLimit fieldStart =
      (exactFieldCount field
        ⟨parsed, frameLength, readableLimit, fieldStart, streamValueWidth field.type⟩).mapError
          field.faultMessage := by
  cases hcount : field.count with
  | mk fixed fieldName expression =>
    rw [hcount] at hloaded
    cases hloaded with
    | absent => simp [resolveFieldCount, exactFieldCount, hcount, Except.mapError]
    | fixed h => simp [resolveFieldCount, exactFieldCount, hcount, Except.mapError]
    | expression hexpression =>
      exact resolveFieldCount_expression (by rw [hcount]) (by rw [hcount])
        (by rw [hcount]; exact hexpression) hcontext
    | field fieldName =>
      unfold resolveFieldCount exactFieldCount exactField
      simp only [hcount]
      cases parsed.lookup fieldName with
      | none => simp [bind, Except.bind, Except.mapError, StreamFieldDefinition.faultMessage, hcount]
      | some value =>
        cases value with
        | integer value =>
          by_cases hneg : value < 0 <;>
            simp [StreamFieldValue.integerScalar, validCount, hneg, bind, Except.bind,
              Except.mapError, StreamFieldDefinition.faultMessage, hcount]
        | _ =>
          simp [StreamFieldValue.integerScalar, bind, Except.bind, Except.mapError,
            StreamFieldDefinition.faultMessage, hcount]

end ProtoScope.Scripting
