/-
Runs of the parser.

A run pushes chunk after chunk.  As long as no push overflows, the run is the byte scanner
fed with the chunks, and the windows it looks at stay within what the buffer can hold.
`Reachable` is every state a host can bring a parser to: the pushes, the resets and the
changes of runtime profiles in any order.
-/
import ProtoScope.Proofs.Scripting.ScanLoop

namespace ProtoScope.Scripting

open Library ByteRingBuffer

namespace StreamBufferDefinition

/-- The most bytes the parser's buffer can come to hold. -/
def limit (definition : StreamBufferDefinition) : Nat :=
  if definition.dropOldest then definition.capacity
  else max definition.capacity (min sizeMax definition.maxCapacity)

theorem capacity_le_limit (definition : StreamBufferDefinition) :
    definition.capacity ≤ definition.limit := by
  unfold limit
  split_ifs <;> omega

end StreamBufferDefinition

namespace FrameStreamConfig

/-- A parser with this configuration that has received nothing. -/
def start (config : FrameStreamConfig) : FrameStreamParser where
  toFrameStreamConfig := config
  buffer := .ofCapacity config.bufferDefinition.capacity

end FrameStreamConfig

namespace FrameStreamParser

variable {parser : FrameStreamParser} {options : StreamParseOptions} {bytes : List UInt8}

/-- `pushBytes` on each chunk in turn. -/
def pushAll (parser : FrameStreamParser) (options : StreamParseOptions) :
    List (List UInt8) → FrameStreamParser × List StreamParseBatch
  | [] => (parser, [])
  | chunk :: chunks =>
    let here := parser.pushBytes chunk options
    let rest := pushAll here.1 options chunks
    (rest.1, here.2 :: rest.2)

/-- No push of the run dropped a byte. -/
def Lossless (batches : List StreamParseBatch) : Prop := ∀ batch ∈ batches, batch.overflowed = false

instance (batches : List StreamParseBatch) : Decidable (Lossless batches) :=
  inferInstanceAs (Decidable (∀ batch ∈ batches, batch.overflowed = false))

/-- What a run reports. -/
def reportAll (batches : List StreamParseBatch) : ScanReport :=
  batches.foldr (fun batch rest => batch.report.append rest) .nothing

/-- The states a parser can be brought to. -/
inductive Reachable (bufferDefinition : StreamBufferDefinition)
    (frames : List StreamFrameDefinition) : FrameStreamParser → Prop
  | create : Reachable bufferDefinition frames (.create bufferDefinition frames)
  | push {parser : FrameStreamParser} (bytes : List UInt8) (options : StreamParseOptions) :
      Reachable bufferDefinition frames parser →
      Reachable bufferDefinition frames (parser.pushBytes bytes options).1
  | reset {parser : FrameStreamParser} :
      Reachable bufferDefinition frames parser → Reachable bufferDefinition frames parser.reset
  | setProfile {parser parser' : FrameStreamParser} {frameName : String}
      {profile : StreamRuntimeProfile} : Reachable bufferDefinition frames parser →
      parser.setRuntimeProfile frameName profile = .ok parser' →
      Reachable bufferDefinition frames parser'
  | clearProfile {parser parser' : FrameStreamParser} {frameName : Option String} :
      Reachable bufferDefinition frames parser → parser.clearRuntimeProfile frameName = .ok parser' →
      Reachable bufferDefinition frames parser'

/-! ### One push -/

/-- **A push scans what the append left in the buffer.** -/
theorem pushBytes_spec (options : StreamParseOptions) (hframes : parser.frames ≠ []) (hbytes : bytes ≠ []) :
    let appended := parser.appendIncomingBytes bytes
    let scan := (parser.byteScanner options).run appended.1.buffer.contents
    let result := parser.pushBytes bytes options
    result.1.toFrameStreamConfig = parser.toFrameStreamConfig ∧
      result.1.buffer.capacity = appended.1.buffer.capacity ∧
      result.1.buffer.contents = scan.2 ∧ result.2.report = .ofOutcomes scan.1 := by
  have hconfig := appendIncomingBytes_config parser bytes
  have hfuel : (parser.appendIncomingBytes bytes).1.buffer.contents.length
      ≤ (parser.appendIncomingBytes bytes).1.buffer.size := by simp
  have hloop := scanLoop_spec options (parser.appendIncomingBytes bytes).2 hfuel
  rw [hconfig, appendIncomingBytes_report] at hloop
  simp only [ScanReport.nothing_append] at hloop
  obtain ⟨hcfg, hcap, hcontents, hreport⟩ := hloop
  have hframes' : (parser.appendIncomingBytes bytes).1.frames ≠ [] := by
    rw [hconfig]
    exact hframes
  unfold pushBytes
  rw [if_neg hbytes]
  simp only [if_neg hframes']
  exact ⟨hcfg, hcap, hcontents, hreport⟩

theorem pushBytes_config (parser : FrameStreamParser) (bytes : List UInt8)
    (options : StreamParseOptions) :
    (parser.pushBytes bytes options).1.toFrameStreamConfig = parser.toFrameStreamConfig := by
  by_cases hbytes : bytes = []
  · simp [pushBytes, hbytes]
  by_cases hframes : parser.frames = []
  · have hframes' : (parser.appendIncomingBytes bytes).1.frames = [] := by
      rw [appendIncomingBytes_config]
      exact hframes
    unfold pushBytes
    rw [if_neg hbytes]
    simp only [if_pos hframes']
    exact appendIncomingBytes_config parser bytes
  · exact (pushBytes_spec options hframes hbytes).1

theorem pushBytes_capacity (parser : FrameStreamParser) (bytes : List UInt8)
    (options : StreamParseOptions) :
    (parser.pushBytes bytes options).1.buffer.capacity = parser.buffer.capacity ∨
      (parser.pushBytes bytes options).1.buffer.capacity
        = (parser.ensureAppendCapacity bytes.length).buffer.capacity := by
  by_cases hbytes : bytes = []
  · exact Or.inl (by simp [pushBytes, hbytes])
  right
  rw [← appendIncomingBytes_capacity]
  by_cases hframes : parser.frames = []
  · have hframes' : (parser.appendIncomingBytes bytes).1.frames = [] := by
      rw [appendIncomingBytes_config]
      exact hframes
    unfold pushBytes
    rw [if_neg hbytes]
    simp only [if_pos hframes']
  · exact (pushBytes_spec options hframes hbytes).2.1

/-- The append capacity never passes the limit. -/
theorem ensureAppendCapacity_le_limit
    (h : parser.buffer.capacity ≤ parser.bufferDefinition.limit) (n : Nat) :
    (parser.ensureAppendCapacity n).buffer.capacity ≤ parser.bufferDefinition.limit := by
  have hsize : parser.buffer.size ≤ parser.buffer.capacity := parser.buffer.size_le
  rw [(ensureAppendCapacity_spec parser n).2.2]
  unfold StreamBufferDefinition.limit requiredCapacity at *
  simp only
  split_ifs at * <;> omega

/-- The flag a push returns is the one its append set. -/
theorem pushBytes_overflowed (hbytes : bytes ≠ []) :
    (parser.pushBytes bytes options).2.overflowed
      = (parser.appendIncomingBytes bytes).2.overflowed := by
  have hloop : ∀ fuel (p : FrameStreamParser) (b : StreamParseBatch),
      (scanLoop options fuel p b).2.overflowed = b.overflowed := by
    intro fuel
    induction fuel with
    | zero => exact fun p b => rfl
    | succ fuel ih =>
        intro p b
        by_cases hnil : p.buffer.contents = []
        · simp [scanLoop, buffer_empty_iff.mpr hnil]
        have hlive : p.buffer.empty = false := by
          rw [← Bool.not_eq_true, buffer_empty_iff]
          exact hnil
        rcases scanStep_cases options b hnil with
          ⟨hstep, -⟩ | ⟨k, message, -, -, hstep⟩ | ⟨k, message, -, hstep⟩ |
            ⟨frame, n, -, hstep⟩ | ⟨error, -, hstep⟩ <;>
          simp only [scanLoop, hlive, Bool.false_eq_true, if_false, hstep]
        · rfl
        · rw [ih]
          rfl
        · rw [ih]
          rfl
        · rw [ih]
          rfl
  unfold pushBytes
  rw [if_neg hbytes]
  simp only
  split_ifs
  · rfl
  · exact hloop _ _ _

/-- What a push that drops nothing scans: the old bytes and then the new ones. -/
theorem appendIncomingBytes_lossless
    (h : (parser.appendIncomingBytes bytes).2.overflowed = false) :
    (parser.appendIncomingBytes bytes).1.buffer.contents = parser.buffer.contents ++ bytes ∧
      (parser.buffer.contents ++ bytes).length
        ≤ (parser.ensureAppendCapacity bytes.length).buffer.capacity := by
  obtain ⟨hdropped, hflag⟩ := appendIncomingBytes_dropped parser bytes
  rw [hflag, hdropped, decide_eq_false_iff_not] at h
  have hlen : (parser.buffer.contents ++ bytes).length = parser.buffer.size + bytes.length := by
    simp
  refine ⟨?_, by omega⟩
  rw [appendIncomingBytes_contents]
  split_ifs with hdrop
  · have hcap := (ensureAppendCapacity_spec parser bytes.length).2.2
    rw [if_pos hdrop] at hcap
    unfold newest
    rw [hlen, show parser.buffer.size + bytes.length - parser.buffer.capacity = 0 by omega,
      List.drop_zero]
  · rw [List.take_of_length_le (by omega)]

/-- A parser whose buffer can still grow to the limit. -/
def Roomy (parser : FrameStreamParser) : Prop :=
  if parser.bufferDefinition.dropOldest then
    parser.buffer.capacity = parser.bufferDefinition.capacity
  else parser.bufferDefinition.capacity ≤ parser.buffer.capacity

theorem Roomy.ensureAppendCapacity (h : parser.Roomy) (n : Nat) :
    (parser.ensureAppendCapacity n).Roomy := by
  obtain ⟨hconfig, -, hcapacity⟩ := ensureAppendCapacity_spec parser n
  unfold Roomy at *
  rw [hconfig, hcapacity]
  split_ifs at * <;> omega

/-- The append of what fits the limit drops nothing. -/
theorem appendIncomingBytes_fits (bytes : List UInt8) (hroomy : parser.Roomy)
    (h : parser.buffer.size + bytes.length ≤ parser.bufferDefinition.limit) :
    (parser.appendIncomingBytes bytes).2.overflowed = false := by
  obtain ⟨hdropped, hflag⟩ := appendIncomingBytes_dropped parser bytes
  rw [hflag, hdropped, decide_eq_false_iff_not, (ensureAppendCapacity_spec _ _).2.2]
  unfold Roomy at hroomy
  unfold StreamBufferDefinition.limit at h
  unfold requiredCapacity
  simp only
  split_ifs at * <;> omega

/-! ### Runs -/

theorem Reachable.spec {bufferDefinition : StreamBufferDefinition}
    {frames : List StreamFrameDefinition} {parser : FrameStreamParser}
    (h : Reachable bufferDefinition frames parser) :
    parser.bufferDefinition = bufferDefinition ∧ parser.frames = frames ∧
      parser.buffer.capacity ≤ parser.bufferDefinition.limit := by
  induction h with
  | create =>
      refine ⟨rfl, rfl, ?_⟩
      show (ofCapacity bufferDefinition.capacity).capacity ≤ _
      rw [capacity_ofCapacity]
      exact bufferDefinition.capacity_le_limit
  | @push parser bytes options h ih =>
      obtain ⟨hdef, hframes, hcap⟩ := ih
      have hconfig := pushBytes_config parser bytes options
      refine ⟨by rw [hconfig]; exact hdef, by rw [hconfig]; exact hframes, ?_⟩
      rw [hconfig]
      rcases pushBytes_capacity parser bytes options with hsame | hgrown
      · rw [hsame]
        exact hcap
      · rw [hgrown]
        exact ensureAppendCapacity_le_limit hcap _
  | reset h ih => exact ih
  | @setProfile parser parser' frameName profile h hset ih =>
      unfold setRuntimeProfile at hset
      split at hset
      · cases hset
      · simp only at hset
        split_ifs at hset
        cases hset
        exact ih
  | @clearProfile parser parser' frameName h hclear ih =>
      unfold clearRuntimeProfile clearRuntimeProfiles at hclear
      split at hclear
      · cases hclear
        exact ih
      · split_ifs at hclear
        cases hclear
        exact ih

/-- **A run that drops nothing feeds the byte scanner**, and its windows fit the buffer. -/
theorem pushAll_eq_feedAll {chunks : List (List UInt8)} (hframes : parser.frames ≠ [])
    (hcap : parser.buffer.capacity ≤ parser.bufferDefinition.limit)
    (hrest : parser.byteNext options parser.buffer.contents = none)
    (hlossless : Lossless (parser.pushAll options chunks).2) :
    let run := parser.pushAll options chunks
    let scan := (parser.byteScanner options).feedAll parser.buffer.contents chunks
    run.1.buffer.contents = scan.2 ∧ reportAll run.2 = .ofOutcomes scan.1 ∧
      (parser.byteScanner options).Fits parser.bufferDefinition.limit parser.buffer.contents
        chunks := by
  induction chunks generalizing parser with
  | nil => exact ⟨rfl, rfl, trivial⟩
  | cons chunk chunks ih =>
      have hhere : (parser.pushBytes chunk options).2.overflowed = false :=
        hlossless _ List.mem_cons_self
      have hlater : Lossless ((parser.pushBytes chunk options).1.pushAll options chunks).2 :=
        fun batch hmem => hlossless batch (List.mem_cons_of_mem _ hmem)
      -- One push scans the residual and the chunk, whether or not the chunk is empty.
      have hpush : (parser.pushBytes chunk options).1.toFrameStreamConfig
            = parser.toFrameStreamConfig ∧
          (parser.pushBytes chunk options).1.buffer.capacity ≤ parser.bufferDefinition.limit ∧
          (parser.pushBytes chunk options).1.buffer.contents
            = ((parser.byteScanner options).run (parser.buffer.contents ++ chunk)).2 ∧
          (parser.pushBytes chunk options).2.report
            = .ofOutcomes ((parser.byteScanner options).run (parser.buffer.contents ++ chunk)).1 ∧
          (parser.buffer.contents ++ chunk).length ≤ parser.bufferDefinition.limit := by
        by_cases hchunk : chunk = []
        · subst hchunk
          rw [List.append_nil, Scanner.run_of_none (parser.byteScanner options) hrest]
          refine ⟨rfl, hcap, rfl, rfl, ?_⟩
          have hle : parser.buffer.size ≤ parser.buffer.capacity := parser.buffer.size_le
          rw [length_contents]
          omega
        · rw [pushBytes_overflowed hchunk] at hhere
          obtain ⟨hcontents, hlen⟩ := appendIncomingBytes_lossless hhere
          obtain ⟨hconfig, hcapacity, hleft, hreport⟩ :=
            pushBytes_spec options hframes hchunk
          rw [hcontents] at hleft hreport
          have hlimit := ensureAppendCapacity_le_limit hcap chunk.length
          rw [appendIncomingBytes_capacity] at hcapacity
          exact ⟨hconfig, by omega, hleft, hreport, by omega⟩
      obtain ⟨hconfig, hcap', hcontents, hreport, hlen⟩ := hpush
      have hnext : (parser.pushBytes chunk options).1.byteNext options
          (parser.pushBytes chunk options).1.buffer.contents = none := by
        rw [hconfig, hcontents]
        exact (parser.byteScanner options).next_residual _
      have hih := @ih (parser.pushBytes chunk options).1
        (by rw [hconfig]; exact hframes) (by rw [hconfig]; exact hcap') hnext hlater
      rw [hconfig, hcontents] at hih
      obtain ⟨hfinal, hreports, hfits⟩ := hih
      refine ⟨hfinal, ?_, hlen, hfits⟩
      show (parser.pushBytes chunk options).2.report.append _ = _
      rw [hreport]
      show ScanReport.append _ (reportAll _) = _
      rw [hreports, Scanner.feedAll, ScanReport.ofOutcomes_append]

/-- A stream within the limit is received whole, however it is cut. -/
theorem pushAll_lossless {chunks : List (List UInt8)} (hframes : parser.frames ≠ [])
    (hroomy : parser.Roomy) (h : parser.buffer.size + chunks.flatten.length
      ≤ parser.bufferDefinition.limit) : Lossless (parser.pushAll options chunks).2 := by
  induction chunks generalizing parser with
  | nil =>
      intro batch hmem
      cases hmem
  | cons chunk chunks ih =>
      rw [List.flatten_cons, List.length_append] at h
      intro batch hmem
      by_cases hchunk : chunk = []
      · subst hchunk
        have hpush : (parser.pushBytes [] options).1 = parser := by simp [pushBytes]
        rcases List.mem_cons.mp hmem with rfl | hmem
        · simp [pushBytes]
        · rw [hpush] at hmem
          exact ih hframes hroomy (by simpa using h) batch hmem
      · have hfits := appendIncomingBytes_fits chunk hroomy (by omega)
        rcases List.mem_cons.mp hmem with rfl | hmem
        · rw [pushBytes_overflowed hchunk]
          exact hfits
        · obtain ⟨hconfig, hcapacity, hleft, -⟩ := pushBytes_spec options hframes hchunk
          refine ih (by rw [hconfig]; exact hframes) ?_ ?_ batch hmem
          · have hgrown := hroomy.ensureAppendCapacity chunk.length
            unfold Roomy at hgrown ⊢
            rw [hconfig, hcapacity, appendIncomingBytes_capacity]
            rwa [(ensureAppendCapacity_spec parser chunk.length).1] at hgrown
          · have hle := (parser.byteScanner options).length_residual_le
              (parser.appendIncomingBytes chunk).1.buffer.contents
            rw [← hleft, (appendIncomingBytes_lossless hfits).1, List.length_append,
              length_contents, length_contents] at hle
            rw [hconfig]
            omega

end FrameStreamParser

end ProtoScope.Scripting
