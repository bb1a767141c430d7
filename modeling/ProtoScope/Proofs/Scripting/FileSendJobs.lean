/-
A file sent in chunks arrives as the file.

What a job has issued is always a beginning of its file, cut without gaps; its window holds
the chunks that are issued and not yet finished.  A pump of one job leaves the others and
their handles alone, so what holds of each job holds of all of them at once.

A chunk limit of zero is not refused anywhere: every read then reports the end at once.
-/
import ProtoScope.Scripting.FileSendJobs

namespace ProtoScope.Scripting

open ProtoScope.Transport Function

/-! ### Reading -/

/-- The bytes a read returns are the next ones; it reports the end only there, unless it was
asked for none. -/
theorem FileHandle.read_buffer {handle : FileHandle} {maxBytes : Nat} {fails : Bool}
    {bytes : List UInt8} (h : (handle.read maxBytes fails).2 = .buffer bytes) :
    handle.state = .good ∧ bytes = (handle.content.drop handle.position).take maxBytes ∧
      bytes ≠ [] ∧ (handle.read maxBytes fails).1.content = handle.content ∧
      (handle.read maxBytes fails).1.position = handle.position + bytes.length ∧
      (handle.read maxBytes fails).1.state ≠ .broken ∧
      ((handle.read maxBytes fails).1.state = .ended →
        handle.content.length ≤ handle.position + bytes.length) := by
  unfold FileHandle.read at h ⊢
  cases hstate : handle.state with
  | ended =>
    rw [hstate] at h
    cases h
  | broken =>
    rw [hstate] at h
    cases h
  | good =>
    rw [hstate] at h
    dsimp only at h ⊢
    cases fails with
    | true => cases h
    | false =>
      rw [if_neg (by decide)] at h ⊢
      dsimp only at h ⊢
      split at h
      · cases h
      · rename_i hne
        injection h with hbytes
        rw [hbytes] at hne ⊢
        refine ⟨rfl, rfl, fun hnil => hne (by rw [hnil]; rfl), rfl, rfl, ?_, ?_⟩
        · split <;> decide
        · intro hended
          have hshort : bytes.length < maxBytes := by
            by_contra hfull
            rw [if_neg hfull] at hended
            cases hended
          rw [← hbytes, List.length_take, List.length_drop] at hshort ⊢
          omega

theorem FileHandle.read_eof {handle : FileHandle} {maxBytes : Nat} {fails : Bool}
    (h : (handle.read maxBytes fails).2 = .eof) :
    handle.state = .ended ∨
      handle.state = .good ∧ (0 < maxBytes → handle.content.length ≤ handle.position) := by
  unfold FileHandle.read at h
  cases hstate : handle.state with
  | ended => exact Or.inl rfl
  | broken =>
    rw [hstate] at h
    cases h
  | good =>
    refine Or.inr ⟨rfl, fun hpos => ?_⟩
    rw [hstate] at h
    dsimp only at h
    cases fails with
    | true => cases h
    | false =>
      rw [if_neg (by decide)] at h
      dsimp only at h
      split at h
      · rename_i hempty
        have hlength := congrArg List.length (List.isEmpty_iff.mp hempty)
        rw [List.length_take, List.length_drop, List.length_nil] at hlength
        omega
      · cases h

theorem FileHandle.read_content (handle : FileHandle) (maxBytes : Nat) (fails : Bool) :
    (handle.read maxBytes fails).1.content = handle.content := by
  unfold FileHandle.read
  split
  · rfl
  · rfl
  · split <;> rfl

namespace FileSendHost

/-! ### What a job has issued -/

/-- The bytes of requests, in their order. -/
def payloads (requests : List TxRequest) : List UInt8 := requests.flatMap (·.payload)

/-- The requests cut a beginning of the file of this length, without gaps. -/
structure Slices (content : List UInt8) (requests : List TxRequest) (offset : Nat) : Prop where
  payloads : payloads requests = content.take offset
  offset_le : offset ≤ content.length
  /-- each at its place in the file, and none of them empty -/
  offsets : ∀ before request after, requests = before ++ request :: after →
    request.fileOffset = (FileSendHost.payloads before).length ∧ request.payload ≠ [] ∧
      request.fileTotal = content.length

theorem Slices.nil (content : List UInt8) : Slices content [] 0 where
  payloads := rfl
  offset_le := Nat.zero_le _
  offsets := fun before request after h => by simp at h

/-- The next bytes of the file are issued next. -/
theorem Slices.append {content : List UInt8} {requests : List TxRequest} {offset limit : Nat}
    {request : TxRequest} (h : Slices content requests offset)
    (hpayload : request.payload = (content.drop offset).take limit) (hne : request.payload ≠ [])
    (hoffset : request.fileOffset = offset) (htotal : request.fileTotal = content.length) :
    Slices content (requests ++ [request]) (offset + request.payload.length) where
  payloads := by
    unfold FileSendHost.payloads
    rw [List.flatMap_append, List.flatMap_singleton]
    have hbefore : requests.flatMap (·.payload) = content.take offset := h.payloads
    rw [hbefore, List.take_add, hpayload, List.length_take, List.length_drop]
    congr 1
    rw [List.take_eq_take_iff, List.length_drop]
    omega
  offset_le := by
    have hle := h.offset_le
    rw [hpayload, List.length_take, List.length_drop]
    omega
  offsets := by
    intro before request' after hsplit
    rcases List.eq_nil_or_concat after with rfl | ⟨after', last, rfl⟩
    · obtain ⟨hrequests, hlast⟩ := List.append_inj' hsplit rfl
      injection hlast with hsame
      subst hsame
      subst hrequests
      refine ⟨?_, hne, htotal⟩
      rw [hoffset, h.payloads, List.length_take]
      have hle := h.offset_le
      omega
    · have hsplit' : requests ++ [request] = (before ++ request' :: after') ++ [last] := by
        rw [hsplit]
        simp
      obtain ⟨hrequests, -⟩ := List.append_inj' hsplit' rfl
      exact h.offsets before request' after' hrequests

/-! ### One job -/

def issuedIds (record : FileSendRecord) : List Nat := record.issued.map (·.id)

/-- The chunks counted as finished are issued ones, each counted once. -/
structure Counted (host : FileSendHost) (record : FileSendRecord) : Prop where
  issued : (issuedIds record).Nodup
  issued_lt : ∀ id ∈ issuedIds record, id < host.nextTxRequestId
  finished : record.finished.Nodup
  finished_issued : ∀ id ∈ record.finished, id ∈ issuedIds record

/-- A job that goes on, and its record.  The loop of the pump keeps it as well. -/
structure Live (config : FileIoConfig) (host : FileSendHost) (job : FileSendJob)
    (record : FileSendRecord) : Prop where
  handleId : job.handleId = record.handleId
  total : job.total = record.content.length
  slices : Slices record.content record.issued job.nextOffset
  counted : Counted host record
  inflight : ∀ id, id ∈ job.inflight ↔ id ∈ issuedIds record ∧ id ∉ record.finished
  inflight_nodup : job.inflight.Nodup
  window : job.inflight.length ≤ maxInflight config
  failed : record.failed = false
  eof : job.eof = true ↔ record.endReached = true ∨ record.readFailed = true
  /-- the end that a read reports is the end of the file -/
  complete : record.endReached = true → 0 < config.maxChunkBytes →
    job.nextOffset = record.content.length
  handle : ∃ handle, host.fileHandles job.handleId = some handle ∧ handle.content = record.content ∧
    (job.eof = false → handle.state ≠ .broken ∧ handle.position = job.nextOffset ∧
      (handle.state = .ended → record.content.length ≤ job.nextOffset))
  closed : host.closed.count record.handleId = 0

/-- A job that is gone, as its record tells. -/
structure Gone (config : FileIoConfig) (host : FileSendHost) (record : FileSendRecord) : Prop where
  slices : ∃ offset, Slices record.content record.issued offset ∧
    (record.endReached = true → 0 < config.maxChunkBytes → offset = record.content.length)
  counted : Counted host record
  reason : record.failed = true ∨
    (record.endReached = true ∨ record.readFailed = true) ∧
      ∀ id ∈ issuedIds record, id ∈ record.finished
  closed : host.closed.count record.handleId = 1

/-- Between the steps a job is live, with something in flight or more to read, or it is gone. -/
def Settled (config : FileIoConfig) (host : FileSendHost) (jobId : Nat) : Prop :=
  (∀ job, host.fileSendJobs jobId = some job →
      job.id = jobId ∧ Live config host job (host.records jobId) ∧
        (job.eof = true → job.inflight ≠ [])) ∧
    (host.fileSendJobs jobId = none → Gone config host (host.records jobId))

/-! ### What a step of one job leaves alone -/

/-- The step touches no other job and no other handle, and takes no id back. -/
structure Leaves (jobId handleId : Nat) (host host' : FileSendHost) : Prop where
  jobs : ∀ k, k ≠ jobId → host'.fileSendJobs k = host.fileSendJobs k
  records : ∀ k, k ≠ jobId → host'.records k = host.records k
  handles : ∀ k, k ≠ handleId → host'.fileHandles k = host.fileHandles k
  closed : ∀ k, k ≠ handleId → host'.closed.count k = host.closed.count k
  requestIds : host.nextTxRequestId ≤ host'.nextTxRequestId

/-- A step of the job itself, which starts no job and opens no handle. -/
structure OnlyJob (jobId handleId : Nat) (host host' : FileSendHost) : Prop extends
    Leaves jobId handleId host host' where
  handleIds : host'.nextFileHandleId = host.nextFileHandleId
  jobIds : host'.nextFileJobId = host.nextFileJobId
  handleId : (host'.records jobId).handleId = (host.records jobId).handleId

theorem OnlyJob.refl (jobId handleId : Nat) (host : FileSendHost) :
    OnlyJob jobId handleId host host :=
  ⟨⟨fun _ _ => rfl, fun _ _ => rfl, fun _ _ => rfl, fun _ _ => rfl, Nat.le_refl _⟩, rfl, rfl, rfl⟩

theorem OnlyJob.trans {jobId handleId : Nat} {first second third : FileSendHost}
    (h : OnlyJob jobId handleId first second) (h' : OnlyJob jobId handleId second third) :
    OnlyJob jobId handleId first third where
  jobs k hk := (h'.jobs k hk).trans (h.jobs k hk)
  records k hk := (h'.records k hk).trans (h.records k hk)
  handles k hk := (h'.handles k hk).trans (h.handles k hk)
  closed k hk := (h'.closed k hk).trans (h.closed k hk)
  requestIds := Nat.le_trans h.requestIds h'.requestIds
  handleIds := h'.handleIds.trans h.handleIds
  jobIds := h'.jobIds.trans h.jobIds
  handleId := h'.handleId.trans h.handleId

variable {config : FileIoConfig} {host host' : FileSendHost}

theorem Counted.mono {record : FileSendRecord} (h : Counted host record)
    (hids : host.nextTxRequestId ≤ host'.nextTxRequestId) : Counted host' record where
  issued := h.issued
  issued_lt id hid := Nat.lt_of_lt_of_le (h.issued_lt id hid) hids
  finished := h.finished
  finished_issued := h.finished_issued

/-- A job with another handle goes on as before. -/
theorem Settled.of_leaves {jobId handleId k : Nat} (h : Settled config host k)
    (honly : Leaves jobId handleId host host') (hk : k ≠ jobId)
    (hhandle : (host.records k).handleId ≠ handleId) : Settled config host' k := by
  unfold Settled at h ⊢
  rw [honly.jobs k hk, honly.records k hk]
  refine ⟨fun job hjob => ?_, fun hnone => ?_⟩
  · obtain ⟨hid, hlive, hflight⟩ := h.1 job hjob
    refine ⟨hid, ?_, hflight⟩
    exact
      { hlive with
        counted := hlive.counted.mono honly.requestIds
        handle := by
          rw [honly.handles job.handleId (by rw [hlive.handleId]; exact hhandle)]
          exact hlive.handle
        closed := by
          rw [honly.closed _ hhandle]
          exact hlive.closed }
  · have hgone := h.2 hnone
    exact
      { hgone with
        counted := hgone.counted.mono honly.requestIds
        closed := by
          rw [honly.closed _ hhandle]
          exact hgone.closed }

theorem note_records_self (host : FileSendHost) (jobId : Nat)
    (f : FileSendRecord → FileSendRecord) :
    (host.note jobId f).records jobId = f (host.records jobId) :=
  update_self ..

/-- Only the record of the job changes where something is noted. -/
theorem note_onlyJob (host : FileSendHost) (jobId handleId : Nat)
    {f : FileSendRecord → FileSendRecord} (hf : ∀ record, (f record).handleId = record.handleId) :
    OnlyJob jobId handleId host (host.note jobId f) where
  jobs _ _ := rfl
  records _ hk := update_of_ne hk ..
  handles _ _ := rfl
  closed _ _ := rfl
  requestIds := Nat.le_refl _
  handleIds := rfl
  jobIds := rfl
  handleId := by rw [note_records_self, hf]

theorem setJob_onlyJob (host : FileSendHost) (jobId handleId : Nat) (job : Option FileSendJob) :
    OnlyJob jobId handleId host (host.setJob jobId job) where
  jobs _ hk := update_of_ne hk ..
  records _ _ := rfl
  handles _ _ := rfl
  closed _ _ := rfl
  requestIds := Nat.le_refl _
  handleIds := rfl
  jobIds := rfl
  handleId := rfl

theorem protoFsClose_onlyJob (host : FileSendHost) (jobId handleId : Nat) :
    OnlyJob jobId handleId host (host.protoFsClose handleId) := by
  unfold protoFsClose
  split
  · exact OnlyJob.refl ..
  · refine ⟨⟨fun _ _ => rfl, fun _ _ => rfl, fun k hk => update_of_ne hk ..,
      fun k hk => ?_, Nat.le_refl _⟩, rfl, rfl, rfl⟩
    dsimp only
    rw [List.count_append, List.count_singleton]
    simp [Ne.symm hk]

/-! ### The pump -/

theorem readLimit_pos {value : Int} (h : 0 < config.maxChunkBytes) :
    0 < readLimit config (some value) := by
  have hvalue : 0 < (max 1 value).toNat := by omega
  unfold readLimit positiveSizeOrDefault
  dsimp only
  rw [if_neg (Nat.ne_of_gt hvalue)]
  exact Nat.lt_min.mpr ⟨hvalue, h⟩

/-- The host after a read of the job's handle. -/
def afterRead (host : FileSendHost) (handleId : Nat) (handle : FileHandle) : FileSendHost :=
  { host with fileHandles := update host.fileHandles handleId (some handle) }

theorem protoFsRead_open {handleId : Nat} {handle : FileHandle} (maxBytes : Option Int)
    (fails : Bool) (h : host.fileHandles handleId = some handle) :
    host.protoFsRead config handleId maxBytes fails =
      (host.afterRead handleId (handle.read (readLimit config maxBytes) fails).1,
        (handle.read (readLimit config maxBytes) fails).2) := by
  unfold protoFsRead
  rw [h]
  rfl

theorem afterRead_onlyJob (host : FileSendHost) (jobId handleId : Nat) (handle : FileHandle) :
    OnlyJob jobId handleId host (host.afterRead handleId handle) :=
  ⟨⟨fun _ _ => rfl, fun _ _ => rfl, fun _ hk => update_of_ne hk .., fun _ _ => rfl,
    Nat.le_refl _⟩, rfl, rfl, rfl⟩

variable {job : FileSendJob}

/-- A chunk that is read is issued, at its offset and under a new id. -/
theorem issueChunk_live {handle : FileHandle} {limit : Nat} {fails : Bool} {payload : List UInt8}
    (nowMs : Nat) (h : Live config host job (host.records job.id)) (heof : job.eof = false)
    (hroom : job.inflight.length < maxInflight config)
    (hhandle : host.fileHandles job.handleId = some handle)
    (hread : (handle.read limit fails).2 = .buffer payload) :
    let issued := (host.afterRead job.handleId (handle.read limit fails).1).issueChunk job payload
      nowMs
    Live config issued.1 issued.2 (issued.1.records job.id) ∧
      OnlyJob job.id job.handleId host issued.1 := by
  intro issued
  obtain ⟨handle', hhandle', hcontent, hposition⟩ := h.handle
  obtain rfl : handle = handle' := Option.some.inj (hhandle.symm.trans hhandle')
  obtain ⟨-, hatOffset, -⟩ := hposition heof
  obtain ⟨-, hpayload, hne, hkept, hmoved, hunbroken, hended⟩ := FileHandle.read_buffer hread
  rw [hcontent, hatOffset] at hpayload
  obtain ⟨request, hrequestId, hbytes, hoffset, htotal, hrecord⟩ : ∃ request : TxRequest,
      request.id = host.nextTxRequestId ∧ request.payload = payload ∧
        request.fileOffset = job.nextOffset ∧ request.fileTotal = job.total ∧
        issued.1.records job.id =
          { host.records job.id with issued := (host.records job.id).issued ++ [request] } := by
    refine ⟨{ host.createTxRequest job.kind payload nowMs with
      tag := if job.tag.isEmpty then "" else job.tag
      fileJobId := job.id
      fileOffset := job.nextOffset
      fileTotal := job.total }, rfl, rfl, rfl, rfl, ?_⟩
    exact update_self ..
  have hnew : host.nextTxRequestId ∉ job.inflight := by
    intro hmem
    exact Nat.lt_irrefl _ (h.counted.issued_lt _ ((h.inflight _).mp hmem).1)
  have hinflight : issued.2.inflight = host.nextTxRequestId :: job.inflight :=
    List.insert_of_not_mem hnew
  have hids : issuedIds (issued.1.records job.id) =
      issuedIds (host.records job.id) ++ [host.nextTxRequestId] := by
    rw [hrecord, ← hrequestId]
    exact List.map_append
  have hunfinished : host.nextTxRequestId ∉ (host.records job.id).finished := by
    intro hmem
    exact Nat.lt_irrefl _ (h.counted.issued_lt _ (h.counted.finished_issued _ hmem))
  have hfinished : (issued.1.records job.id).finished = (host.records job.id).finished := by
    rw [hrecord]
  refine ⟨?_, ?_⟩
  · refine
      { handleId := by rw [hrecord]; exact h.handleId
        total := by rw [hrecord]; exact h.total
        slices := ?_
        counted := ?_
        inflight := ?_
        inflight_nodup := ?_
        window := ?_
        failed := by rw [hrecord]; exact h.failed
        eof := by rw [hrecord]; exact h.eof
        complete := ?_
        handle := ?_
        closed := by rw [hrecord]; exact h.closed }
    · rw [hrecord]
      have happend := h.slices.append (hbytes.trans hpayload) (by rw [hbytes]; exact hne) hoffset
        (htotal.trans h.total)
      rw [hbytes] at happend
      exact happend
    · refine ⟨?_, ?_, hfinished ▸ h.counted.finished, ?_⟩
      · rw [hids]
        refine List.nodup_append.mpr ⟨h.counted.issued, List.pairwise_singleton .., ?_⟩
        intro a ha b hb
        rw [List.mem_singleton.mp hb]
        exact Nat.ne_of_lt (h.counted.issued_lt a ha)
      · intro id hid
        rw [hids, List.mem_append, List.mem_singleton] at hid
        rcases hid with hold | rfl
        · exact Nat.lt_succ_of_lt (h.counted.issued_lt id hold)
        · exact Nat.lt_succ_self _
      · intro id hid
        rw [hids, List.mem_append]
        exact Or.inl (h.counted.finished_issued id (hfinished ▸ hid))
    · intro id
      rw [hinflight, hids, hfinished, List.mem_cons, List.mem_append, List.mem_singleton,
        h.inflight]
      constructor
      · rintro (rfl | ⟨hissued, hopen⟩)
        · exact ⟨Or.inr rfl, hunfinished⟩
        · exact ⟨Or.inl hissued, hopen⟩
      · rintro ⟨hissued | rfl, hopen⟩
        · exact Or.inr ⟨hissued, hopen⟩
        · exact Or.inl rfl
    · rw [hinflight]
      exact List.nodup_cons.mpr ⟨hnew, h.inflight_nodup⟩
    · rw [hinflight]
      exact hroom
    · intro hend
      have hnoEnd : (host.records job.id).endReached = false := by
        cases hc : (host.records job.id).endReached with
        | false => rfl
        | true => exact absurd (heof.symm.trans (h.eof.mpr (Or.inl hc))) (by decide)
      rw [hrecord] at hend
      exact absurd (hnoEnd.symm.trans hend) (by decide)
    · refine ⟨(handle.read limit fails).1, update_self .., ?_,
        fun _ => ⟨hunbroken, ?_, ?_⟩⟩
      · rw [hrecord, hkept]
        exact hcontent
      · rw [hmoved, hatOffset]
        rfl
      · intro hatEnd
        have hle := hended hatEnd
        rw [hrecord]
        rw [hcontent, hatOffset] at hle
        exact hle
  · refine (afterRead_onlyJob host job.id job.handleId (handle.read limit fails).1).trans ?_
    refine ⟨⟨fun _ _ => rfl, fun k hk => update_of_ne hk .., fun _ _ => rfl,
      fun _ _ => rfl, Nat.le_succ _⟩, rfl, rfl, ?_⟩
    show (issued.1.records job.id).handleId = (host.records job.id).handleId
    rw [hrecord]

/-- What the loop of the pump keeps. -/
structure Pumped (config : FileIoConfig) (host : FileSendHost) (job : FileSendJob)
    (result : FileSendHost × FileSendJob) : Prop where
  live : Live config result.1 result.2 (result.1.records job.id)
  only : OnlyJob job.id job.handleId host result.1
  jobs : result.1.fileSendJobs = host.fileSendJobs
  id : result.2.id = job.id
  handleId : result.2.handleId = job.handleId

/-- A read without bytes ends the reading of the job, which is noted. -/
theorem Pumped.stop {handle : FileHandle} {f : FileSendRecord → FileSendRecord}
    (h : Live config host job (host.records job.id))
    (hcontent : handle.content = (host.records job.id).content)
    (hf : ∀ record, f record = { record with endReached := (f record).endReached, readFailed := (f record).readFailed })
    (hstop : ∀ record, (f record).endReached = true ∨ (f record).readFailed = true)
    (hend : (f (host.records job.id)).endReached = true → 0 < config.maxChunkBytes → (host.records job.id).content.length ≤ job.nextOffset)
    :
    Pumped config host job
      ((host.afterRead job.handleId handle).note job.id f, { job with eof := true }) := by
  have hrecord : ((host.afterRead job.handleId handle).note job.id f).records job.id =
      f (host.records job.id) := note_records_self ..
  have hfields := hf (host.records job.id)
  refine
    { live := ?_
      only := (afterRead_onlyJob host job.id job.handleId handle).trans
        (note_onlyJob _ job.id job.handleId fun record => by rw [hf record])
      jobs := rfl
      id := rfl
      handleId := rfl }
  dsimp only
  rw [hrecord, hfields]
  exact
    { handleId := h.handleId
      total := h.total
      slices := h.slices
      counted := ⟨h.counted.issued, h.counted.issued_lt, h.counted.finished,
        h.counted.finished_issued⟩
      inflight := h.inflight
      inflight_nodup := h.inflight_nodup
      window := h.window
      failed := h.failed
      eof := ⟨fun _ => hstop _, fun _ => rfl⟩
      complete := fun hreached hpos => Nat.le_antisymm h.slices.offset_le (hend hreached hpos)
      handle := ⟨handle, update_self .., hcontent, fun hopen => by cases hopen⟩
      closed := h.closed }

theorem pumpLoop_pumped (circumstances : Circumstances) (rounds : Nat) (host : FileSendHost)
    (job : FileSendJob) (h : Live config host job (host.records job.id)) :
    Pumped config host job (pumpLoop config circumstances rounds host job) := by
  induction rounds generalizing host job with
  | zero => exact ⟨h, OnlyJob.refl .., rfl, rfl, rfl⟩
  | succ rounds ih =>
    rw [pumpLoop]
    by_cases hguard : (job.eof || decide (maxInflight config ≤ job.inflight.length)) = true
    · rw [if_pos hguard]
      exact ⟨h, OnlyJob.refl .., rfl, rfl, rfl⟩
    · rw [if_neg hguard]
      rw [Bool.or_eq_true, decide_eq_true_eq, not_or, Bool.not_eq_true, Nat.not_le] at hguard
      obtain ⟨heof, hroom⟩ := hguard
      obtain ⟨handle, hhandle, hcontent, hposition⟩ := h.handle
      rw [protoFsRead_open _ _ hhandle]
      have hkept := FileHandle.read_content handle
        (readLimit config (some (Int.bmod job.chunkSize (2 ^ 32))))
        (circumstances.readFails job.nextOffset)
      cases hread : (handle.read (readLimit config (some (Int.bmod job.chunkSize (2 ^ 32))))
        (circumstances.readFails job.nextOffset)).2 with
      | eof =>
        refine Pumped.stop h (hkept.trans hcontent) (fun _ => rfl) (fun _ => Or.inl rfl)
          fun _ hpos => ?_
        obtain ⟨-, hat, hended⟩ := hposition heof
        rcases FileHandle.read_eof hread with hstate | ⟨-, hnothing⟩
        · exact hended hstate
        · rw [← hcontent, ← hat]
          exact hnothing (readLimit_pos hpos)
      | error =>
        refine Pumped.stop h (hkept.trans hcontent) (fun _ => rfl) (fun _ => Or.inr rfl)
          fun hreached _ => ?_
        exact absurd (heof.symm.trans (h.eof.mpr (Or.inl hreached))) (by decide)
      | buffer payload =>
        obtain ⟨hlive, honly⟩ := issueChunk_live circumstances.nowMs h heof hroom hhandle
          hread
        have hnext := ih _ _ hlive
        exact ⟨hnext.live, honly.trans hnext.only, hnext.jobs, hnext.id, hnext.handleId⟩

theorem protoFsClose_fileSendJobs (host : FileSendHost) (handleId : Nat) :
    (host.protoFsClose handleId).fileSendJobs = host.fileSendJobs := by
  unfold protoFsClose
  split <;> rfl

theorem protoFsClose_records (host : FileSendHost) (handleId : Nat) :
    (host.protoFsClose handleId).records = host.records := by
  unfold protoFsClose
  split <;> rfl

/-- Closing the open handle of a job leaves it gone. -/
theorem Live.close {record record' : FileSendRecord} (h : Live config host job record)
    (hhandles : host'.fileHandles = host.fileHandles) (hclosed : host'.closed = host.closed)
    (hids : host'.nextTxRequestId = host.nextTxRequestId)
    (hrecord : record' = { record with failed := record'.failed })
    (hreason : record'.failed = true ∨ (record.endReached = true ∨ record.readFailed = true) ∧ ∀ id ∈ issuedIds record, id ∈ record.finished)
    : Gone config (host'.protoFsClose job.handleId) record' := by
  obtain ⟨handle, hhandle, -⟩ := h.handle
  have hclose : host'.protoFsClose job.handleId =
      { host' with
        fileHandles := update host'.fileHandles job.handleId none
        closed := host'.closed ++ [job.handleId] } := by
    unfold protoFsClose
    rw [hhandles, hhandle]
  have hcount : (host'.closed ++ [job.handleId]).count record.handleId = 1 := by
    rw [List.count_append, hclosed, h.closed, h.handleId, List.count_singleton_self]
  rw [hclose, hrecord]
  exact
    { slices := ⟨job.nextOffset, h.slices, h.complete⟩
      counted := ⟨h.counted.issued, fun id hid => hids ▸ h.counted.issued_lt id hid,
        h.counted.finished, h.counted.finished_issued⟩
      reason := hreason
      closed := hcount }

/-- The pump leaves the job settled, whichever way its loop ends. -/
theorem pumpFileSendJob_settled (circumstances : Circumstances) {jobId : Nat}
    (hjob : host.fileSendJobs jobId = some job) (hid : job.id = jobId)
    (h : Live config host job (host.records jobId)) :
    Settled config (host.pumpFileSendJob config circumstances jobId) jobId ∧
      OnlyJob jobId (host.records jobId).handleId host
        (host.pumpFileSendJob config circumstances jobId) := by
  subst hid
  have hpumped := pumpLoop_pumped circumstances (maxInflight config) host job h
  unfold pumpFileSendJob
  rw [hjob]
  dsimp only
  generalize pumpLoop config circumstances (maxInflight config) host job = result at hpumped ⊢
  have honly := hpumped.only
  rw [h.handleId] at honly
  split
  · rename_i hdone
    rw [Bool.and_eq_true, List.isEmpty_iff] at hdone
    have hgone : Gone config ((result.1.setJob job.id none).protoFsClose result.2.handleId)
        (result.1.records job.id) := by
      refine hpumped.live.close rfl rfl rfl rfl (Or.inr ⟨hpumped.live.eof.mp hdone.1, ?_⟩)
      intro id hissued
      by_contra hopen
      have hmem := (hpumped.live.inflight id).mpr ⟨hissued, hopen⟩
      rw [hdone.2] at hmem
      cases hmem
    have hclose := protoFsClose_onlyJob (result.1.setJob job.id none) job.id result.2.handleId
    refine ⟨⟨fun job' hsome => ?_, fun _ => ?_⟩, ?_⟩
    · rw [protoFsClose_fileSendJobs] at hsome
      have hnone : (result.1.setJob job.id none).fileSendJobs job.id = none :=
        update_self ..
      rw [hnone] at hsome
      cases hsome
    · rw [protoFsClose_records]
      exact hgone
    · rw [hpumped.handleId, h.handleId] at hclose ⊢
      exact (honly.trans (setJob_onlyJob ..)).trans hclose
  · rename_i hgoing
    rw [Bool.and_eq_true, List.isEmpty_iff] at hgoing
    have hsame : (result.1.setJob job.id (some result.2)).fileSendJobs job.id = some result.2 :=
      update_self ..
    refine ⟨⟨fun job' hsome => ?_, fun hnone => ?_⟩, honly.trans (setJob_onlyJob ..)⟩
    · rw [hsame] at hsome
      obtain rfl := Option.some.inj hsome
      refine ⟨hpumped.id, ?_, fun heof hempty => hgoing ⟨heof, hempty⟩⟩
      have hlive := hpumped.live
      exact
        { hlive with
          counted := hlive.counted.mono (Nat.le_refl _)
          handle := hlive.handle
          closed := hlive.closed }
    · rw [hsame] at hnone
      cases hnone

/-! ### The events -/

/-- A failed chunk: the job is gone, its waiting requests are withdrawn and its handle closed. -/
theorem onTxEvent_failed (circumstances : Circumstances) {event : TxEvent}
    (hevent : ¬ (event.fileJobId = 0 ∨ host.executionFaulted = true))
    (hjob : host.fileSendJobs event.fileJobId = some job)
    (h : Live config host job (host.records event.fileJobId)) (hinflight : event.id ∈ job.inflight)
    (hfailed : failedState event.state = true) :
    Settled config (host.onTxEvent config circumstances event) event.fileJobId ∧
      OnlyJob event.fileJobId (host.records event.fileJobId).handleId host
        (host.onTxEvent config circumstances event) := by
  unfold onTxEvent
  rw [if_neg hevent, hjob]
  dsimp only
  rw [if_pos hinflight, if_pos hfailed]
  have honly := (setJob_onlyJob host event.fileJobId (host.records event.fileJobId).handleId
    none).trans (note_onlyJob _ event.fileJobId _
      (f := fun record => { record with failed := true }) fun _ => rfl)
  generalize hhost' : (host.setJob event.fileJobId none).note event.fileJobId
    (fun record => { record with failed := true }) = host' at honly ⊢
  have hrecord : host'.records event.fileJobId =
      { host.records event.fileJobId with failed := true } := by
    rw [← hhost', note_records_self]
    rfl
  have hnone : host'.fileSendJobs event.fileJobId = none := by
    rw [← hhost']
    exact update_self ..
  refine ⟨⟨fun job' hsome => ?_, fun _ => ?_⟩, ?_⟩
  · rw [protoFsClose_fileSendJobs] at hsome
    rw [show _ = none from hnone] at hsome
    cases hsome
  · rw [protoFsClose_records]
    show Gone config _ (host'.records event.fileJobId)
    rw [hrecord]
    refine h.close ?_ ?_ ?_ rfl (Or.inl rfl) <;> rw [← hhost'] <;> rfl
  · rw [h.handleId]
    refine (honly.trans ?_).trans (protoFsClose_onlyJob _ event.fileJobId _)
    exact ⟨⟨fun _ _ => rfl, fun _ _ => rfl, fun _ _ => rfl, fun _ _ => rfl, Nat.le_refl _⟩, rfl,
      rfl, rfl⟩

/-- A finished chunk leaves the window before the pump runs. -/
theorem Live.finish {record : FileSendRecord} {id : Nat} (h : Live config host job record)
    (hid : id ∈ job.inflight) (hhandles : host'.fileHandles = host.fileHandles)
    (hclosed : host'.closed = host.closed) (hids : host'.nextTxRequestId = host.nextTxRequestId) :
    Live config host' { job with inflight := job.inflight.erase id }
      { record with finished := record.finished ++ [id] } := by
  have hopen := (h.inflight id).mp hid
  exact
    { handleId := h.handleId
      total := h.total
      slices := h.slices
      counted :=
        { issued := h.counted.issued
          issued_lt := fun k hk => hids ▸ h.counted.issued_lt k hk
          finished := by
            refine List.nodup_append.mpr ⟨h.counted.finished, List.pairwise_singleton .., ?_⟩
            intro a ha b hb hab
            rw [List.mem_singleton.mp hb] at hab
            exact hopen.2 (hab ▸ ha)
          finished_issued := by
            intro k hk
            rcases List.mem_append.mp hk with hold | hnew
            · exact h.counted.finished_issued k hold
            · rw [List.mem_singleton.mp hnew]
              exact hopen.1 }
      inflight := by
        intro k
        dsimp only
        rw [h.inflight_nodup.mem_erase_iff, h.inflight, List.mem_append, List.mem_singleton]
        show _ ↔ k ∈ issuedIds record ∧ _
        tauto
      inflight_nodup := h.inflight_nodup.erase id
      window := Nat.le_trans (List.length_erase_le ..) h.window
      failed := h.failed
      eof := h.eof
      complete := h.complete
      handle := by
        rw [hhandles]
        exact h.handle
      closed := by
        rw [hclosed]
        exact h.closed }

theorem onTxEvent_settled (circumstances : Circumstances) (event : TxEvent)
    (h : Settled config host event.fileJobId) :
    Settled config (host.onTxEvent config circumstances event) event.fileJobId ∧
      OnlyJob event.fileJobId (host.records event.fileJobId).handleId host
        (host.onTxEvent config circumstances event) := by
  by_cases hevent : event.fileJobId = 0 ∨ host.executionFaulted = true
  · unfold onTxEvent
    rw [if_pos hevent]
    exact ⟨h, OnlyJob.refl ..⟩
  cases hjob : host.fileSendJobs event.fileJobId with
  | none =>
    unfold onTxEvent
    rw [if_neg hevent, hjob]
    exact ⟨h, OnlyJob.refl ..⟩
  | some job =>
    obtain ⟨hid, hlive, -⟩ := h.1 job hjob
    by_cases hinflight : event.id ∈ job.inflight
    · by_cases hfailed : failedState event.state = true
      · exact onTxEvent_failed circumstances hevent hjob hlive hinflight hfailed
      · by_cases hcompleted : completedState job.kind event.state = true
        · unfold onTxEvent
          rw [if_neg hevent, hjob]
          dsimp only
          rw [if_pos hinflight, if_neg hfailed, if_pos hcompleted]
          have honly := (setJob_onlyJob host event.fileJobId
            (host.records event.fileJobId).handleId
            (some { job with inflight := job.inflight.erase event.id })).trans
              (note_onlyJob _ event.fileJobId _
                (f := fun record => { record with finished := record.finished ++ [event.id] })
                fun _ => rfl)
          generalize hhost' : (host.setJob event.fileJobId
            (some { job with inflight := job.inflight.erase event.id })).note event.fileJobId
            (fun record => { record with finished := record.finished ++ [event.id] }) = host'
            at honly ⊢
          have hrecord : host'.records event.fileJobId =
              { host.records event.fileJobId with
                finished := (host.records event.fileJobId).finished ++ [event.id] } := by
            rw [← hhost', note_records_self]
            rfl
          have hsome : host'.fileSendJobs event.fileJobId =
              some { job with inflight := job.inflight.erase event.id } := by
            rw [← hhost']
            exact update_self ..
          have hfinished : Live config host' { job with inflight := job.inflight.erase event.id }
              (host'.records event.fileJobId) := by
            rw [hrecord]
            refine hlive.finish hinflight ?_ ?_ ?_ <;> rw [← hhost'] <;> rfl
          obtain ⟨hsettled, hpumped⟩ := pumpFileSendJob_settled circumstances hsome hid hfinished
          rw [honly.handleId] at hpumped
          exact ⟨hsettled, honly.trans hpumped⟩
        · unfold onTxEvent
          rw [if_neg hevent, hjob]
          dsimp only
          rw [if_pos hinflight, if_neg hfailed, if_neg hcompleted]
          exact ⟨h, OnlyJob.refl ..⟩
    · unfold onTxEvent
      rw [if_neg hevent, hjob]
      dsimp only
      rw [if_neg hinflight]
      exact ⟨h, OnlyJob.refl ..⟩

/-! ### All jobs -/

/-- The ids the host has given to jobs. -/
def Started (host : FileSendHost) (jobId : Nat) : Prop := 0 < jobId ∧ jobId < host.nextFileJobId

/-- Every job is settled and has a handle of its own. -/
structure Consistent (config : FileIoConfig) (host : FileSendHost) : Prop where
  jobIds_pos : 0 < host.nextFileJobId
  started : ∀ k job, host.fileSendJobs k = some job → Started host k
  settled : ∀ k, Started host k → Settled config host k
  handle_lt : ∀ k, Started host k → (host.records k).handleId < host.nextFileHandleId
  handle_ne : ∀ j k, Started host j → Started host k → j ≠ k →
    (host.records j).handleId ≠ (host.records k).handleId
  closed_lt : ∀ handleId ∈ host.closed, handleId < host.nextFileHandleId

theorem Consistent.of_onlyJob {jobId : Nat} (h : Consistent config host)
    (hstarted : Started host jobId) (honly : OnlyJob jobId (host.records jobId).handleId host host')
    (hsettled : Settled config host' jobId) : Consistent config host' := by
  have hsame : ∀ k, Started host' k ↔ Started host k := by
    intro k
    unfold Started
    rw [honly.jobIds]
  have hhandle : ∀ k, (host'.records k).handleId = (host.records k).handleId := by
    intro k
    by_cases hk : k = jobId
    · rw [hk]
      exact honly.handleId
    · rw [honly.records k hk]
  refine ⟨by rw [honly.jobIds]; exact h.jobIds_pos, fun k job hjob => ?_, fun k hk => ?_,
    fun k hk => ?_, fun j k hj hk hne => ?_, fun handleId hmem => ?_⟩
  · rw [hsame]
    by_cases hk : k = jobId
    · rw [hk]
      exact hstarted
    · rw [honly.jobs k hk] at hjob
      exact h.started k job hjob
  · rw [hsame] at hk
    by_cases hkj : k = jobId
    · rw [hkj]
      exact hsettled
    · exact (h.settled k hk).of_leaves honly.toLeaves hkj (h.handle_ne k jobId hk hstarted hkj)
  · rw [hsame] at hk
    rw [hhandle, honly.handleIds]
    exact h.handle_lt k hk
  · rw [hsame] at hj hk
    rw [hhandle, hhandle]
    exact h.handle_ne j k hj hk hne
  · rw [honly.handleIds]
    by_cases hown : handleId = (host.records jobId).handleId
    · rw [hown]
      exact h.handle_lt jobId hstarted
    · apply h.closed_lt
      rw [← List.count_pos_iff, ← honly.closed handleId hown, List.count_pos_iff]
      exact hmem

/-- A step that starts no job and touches at most a handle that no job has. -/
theorem Consistent.of_leaves (handleId : Nat) (h : Consistent config host)
    (hleaves : Leaves 0 handleId host host') (hnew : host.nextFileHandleId ≤ handleId)
    (hjobs : host'.fileSendJobs = host.fileSendJobs) (hrecords : host'.records = host.records)
    (hhandleIds : host.nextFileHandleId ≤ host'.nextFileHandleId)
    (hjobIds : host'.nextFileJobId = host.nextFileJobId)
    (hclosed : ∀ id ∈ host'.closed, id ∈ host.closed ∨ id < host'.nextFileHandleId) :
    Consistent config host' := by
  have hsame : ∀ k, Started host' k ↔ Started host k := by
    intro k
    unfold Started
    rw [hjobIds]
  refine ⟨by rw [hjobIds]; exact h.jobIds_pos, fun k job hjob => ?_, fun k hk => ?_,
    fun k hk => ?_, fun j k hj hk hne => ?_, fun id hmem => ?_⟩
  · rw [hsame]
    rw [hjobs] at hjob
    exact h.started k job hjob
  · rw [hsame] at hk
    have hlt := h.handle_lt k hk
    exact (h.settled k hk).of_leaves hleaves (Nat.ne_of_gt hk.1) (by omega)
  · rw [hsame] at hk
    rw [hrecords]
    exact Nat.lt_of_lt_of_le (h.handle_lt k hk) hhandleIds
  · rw [hsame] at hj hk
    rw [hrecords]
    exact h.handle_ne j k hj hk hne
  · rcases hclosed id hmem with hold | hlt
    · exact Nat.lt_of_lt_of_le (h.closed_lt id hold) hhandleIds
    · exact hlt

/-- The host with a file opened. -/
def opened (host : FileSendHost) (content : List UInt8) : FileSendHost :=
  { host with
    nextFileHandleId := host.nextFileHandleId + 1
    fileHandles :=
      update host.fileHandles host.nextFileHandleId (some { content := content }) }

/-- The file is opened and closed again. -/
theorem Consistent.open_close (h : Consistent config host) (content : List UInt8) :
    Consistent config ((host.opened content).protoFsClose host.nextFileHandleId) := by
  have hclose : (host.opened content).protoFsClose host.nextFileHandleId =
      { host.opened content with
        fileHandles := update (host.opened content).fileHandles host.nextFileHandleId none
        closed := host.closed ++ [host.nextFileHandleId] } := by
    unfold protoFsClose
    have hopen : (host.opened content).fileHandles host.nextFileHandleId =
        some { content := content } := update_self ..
    rw [hopen]
    rfl
  rw [hclose]
  refine Consistent.of_leaves host.nextFileHandleId h ⟨fun _ _ => rfl, fun _ _ => rfl,
    fun k hk => ?_, fun k hk => ?_, Nat.le_refl _⟩ (Nat.le_refl _) rfl rfl (Nat.le_succ _) rfl ?_
  · show update (host.opened content).fileHandles host.nextFileHandleId none k = _
    rw [update_of_ne hk]
    exact update_of_ne hk ..
  · show (host.closed ++ [host.nextFileHandleId]).count k = _
    rw [List.count_append, List.count_singleton]
    simp [Ne.symm hk]
  · intro id hmem
    rcases List.mem_append.mp hmem with hold | hnew
    · exact Or.inl hold
    · rw [List.mem_singleton.mp hnew]
      exact Or.inr (Nat.lt_succ_self _)

/-- The host with a job of its own for the opened file, before the pump runs. -/
def started (host : FileSendHost) (content : List UInt8) (job : FileSendJob) : FileSendHost :=
  (({ host.opened content with nextFileJobId := host.nextFileJobId + 1 }).setJob host.nextFileJobId
    (some job)).note host.nextFileJobId fun _ =>
      { content := content, handleId := host.nextFileHandleId }

theorem Consistent.start (h : Consistent config host) (content : List UInt8) (job : FileSendJob)
    (hid : job.id = host.nextFileJobId) (hhandleId : job.handleId = host.nextFileHandleId)
    (htotal : job.total = content.length) (hoffset : job.nextOffset = 0)
    (hinflight : job.inflight = []) (heof : job.eof = false) :
    Consistent config (host.started content job) ∧
      (host.started content job).fileSendJobs host.nextFileJobId = some job := by
  have hjob : (host.started content job).fileSendJobs host.nextFileJobId = some job :=
    update_self ..
  have hrecord : (host.started content job).records host.nextFileJobId =
      { content := content, handleId := host.nextFileHandleId } := note_records_self ..
  have hleaves : Leaves host.nextFileJobId host.nextFileHandleId host (host.started content job) :=
    ⟨fun _ hk => update_of_ne hk .., fun _ hk => update_of_ne hk ..,
      fun _ hk => update_of_ne hk .., fun _ _ => rfl, Nat.le_refl _⟩
  have hstarted : ∀ k, Started (host.started content job) k →
      Started host k ∧ k ≠ host.nextFileJobId ∨ k = host.nextFileJobId := by
    intro k hk
    obtain ⟨hpos, hlt⟩ := hk
    have hlt' : k < host.nextFileJobId + 1 := hlt
    rcases Nat.lt_or_ge k host.nextFileJobId with hold | hnew
    · exact Or.inl ⟨⟨hpos, hold⟩, Nat.ne_of_lt hold⟩
    · exact Or.inr (by omega)
  have hfresh : host.nextFileHandleId ∉ host.closed := fun hmem =>
    Nat.lt_irrefl _ (h.closed_lt _ hmem)
  have hlive : Live config (host.started content job) job
      { content := content, handleId := host.nextFileHandleId } :=
    { handleId := hhandleId
      total := htotal
      slices := by rw [hoffset]; exact Slices.nil content
      counted := ⟨List.nodup_nil, fun _ hmem => (List.not_mem_nil hmem).elim, List.nodup_nil,
        fun _ hmem => (List.not_mem_nil hmem).elim⟩
      inflight := fun id => by rw [hinflight]; simp [issuedIds]
      inflight_nodup := by rw [hinflight]; exact List.nodup_nil
      window := by rw [hinflight]; exact Nat.zero_le _
      failed := rfl
      eof := by rw [heof]; simp
      complete := fun hend => by cases hend
      handle := ⟨{ content := content }, by rw [hhandleId]; exact update_self .., rfl,
        fun _ => ⟨StreamState.noConfusion, hoffset.symm, StreamState.noConfusion⟩⟩
      closed := List.count_eq_zero.mpr hfresh }
  refine ⟨⟨Nat.succ_pos _, fun k job' hsome => ?_, fun k hk => ?_, fun k hk => ?_,
    fun j k hj hk hne => ?_, fun id hmem => ?_⟩, hjob⟩
  · by_cases hk : k = host.nextFileJobId
    · rw [hk]
      exact ⟨h.jobIds_pos, Nat.lt_succ_self _⟩
    · rw [hleaves.jobs k hk] at hsome
      obtain ⟨hpos, hlt⟩ := h.started k job' hsome
      exact ⟨hpos, Nat.lt_succ_of_lt hlt⟩
  · rcases hstarted k hk with ⟨hold, hne⟩ | rfl
    · exact (h.settled k hold).of_leaves hleaves hne (Nat.ne_of_lt (h.handle_lt k hold))
    · unfold Settled
      rw [hjob, hrecord]
      refine ⟨fun job' hsome => ?_, fun hnone => by cases hnone⟩
      obtain rfl := Option.some.inj hsome
      exact ⟨hid, hlive, fun hend => by rw [heof] at hend; cases hend⟩
  · rcases hstarted k hk with ⟨hold, hne⟩ | rfl
    · rw [hleaves.records k hne]
      exact Nat.lt_succ_of_lt (h.handle_lt k hold)
    · rw [hrecord]
      exact Nat.lt_succ_self _
  · rcases hstarted j hj with ⟨hjold, hjne⟩ | rfl
    · rw [hleaves.records j hjne]
      rcases hstarted k hk with ⟨hkold, hkne⟩ | rfl
      · rw [hleaves.records k hkne]
        exact h.handle_ne j k hjold hkold hne
      · rw [hrecord]
        exact Nat.ne_of_lt (h.handle_lt j hjold)
    · rcases hstarted k hk with ⟨hkold, hkne⟩ | rfl
      · rw [hleaves.records k hkne, hrecord]
        exact Nat.ne_of_gt (h.handle_lt k hkold)
      · exact absurd rfl hne
  · exact Nat.lt_succ_of_lt (h.closed_lt id hmem)

theorem protoFsSendFile_consistent (circumstances : Circumstances) (options : SendFileOptions)
    (file : Option (List UInt8)) (sizeError : Bool) (h : Consistent config host) :
    Consistent config
      (host.protoFsSendFile config circumstances options file sizeError).1 := by
  unfold protoFsSendFile
  split
  · exact h
  · dsimp only
    cases file with
    | none => exact h
    | some content =>
      dsimp only
      split
      · exact h.open_close content
      · generalize min _ config.maxChunkBytes = chunkSize
        obtain ⟨hconsistent, hjob⟩ := h.start content
          { id := host.nextFileJobId
            handleId := host.nextFileHandleId
            kind := if options.kind == "request" then .request else .send
            tag := options.tag
            chunkSize := chunkSize
            total := content.length } rfl rfl rfl rfl rfl rfl
        have hstarted := hconsistent.started _ _ hjob
        obtain ⟨hid, hlive, -⟩ := (hconsistent.settled _ hstarted).1 _ hjob
        obtain ⟨hsettled, honly⟩ := pumpFileSendJob_settled circumstances hjob hid hlive
        exact hconsistent.of_onlyJob hstarted honly hsettled

theorem Consistent.step (h : Consistent config host) (step : FileSendStep) :
    Consistent config (FileSendHost.step config host step) := by
  have hquiet : ∀ host' : FileSendHost, host'.fileSendJobs = host.fileSendJobs →
      host'.records = host.records → host'.fileHandles = host.fileHandles →
      host'.closed = host.closed → host.nextTxRequestId ≤ host'.nextTxRequestId →
      host'.nextFileHandleId = host.nextFileHandleId → host'.nextFileJobId = host.nextFileJobId →
      Consistent config host' := by
    intro host' hjobs hrecords hhandles hclosed hids hhandleIds hjobIds
    refine Consistent.of_leaves host.nextFileHandleId h ⟨fun _ _ => by rw [hjobs],
      fun _ _ => by rw [hrecords], fun _ _ => by rw [hhandles], fun _ _ => by rw [hclosed], hids⟩
      (Nat.le_refl _) hjobs hrecords (Nat.le_of_eq hhandleIds.symm) hjobIds fun id hmem => ?_
    rw [hclosed] at hmem
    exact Or.inl hmem
  cases step with
  | sendFile circumstances options file sizeError =>
    exact protoFsSendFile_consistent circumstances options file sizeError h
  | txEvent circumstances event =>
    by_cases hstarted : Started host event.fileJobId
    · obtain ⟨hsettled, honly⟩ := onTxEvent_settled circumstances event
        (h.settled event.fileJobId hstarted)
      exact h.of_onlyJob hstarted honly hsettled
    · have hnone : host.fileSendJobs event.fileJobId = none := by
        cases hjob : host.fileSendJobs event.fileJobId with
        | none => rfl
        | some job => exact absurd (h.started _ job hjob) hstarted
      have hsame : host.onTxEvent config circumstances event = host := by
        unfold onTxEvent
        rw [hnone]
        split <;> rfl
      show Consistent config (host.onTxEvent config circumstances event)
      rw [hsame]
      exact h
  | send kind payload nowMs => exact hquiet _ rfl rfl rfl rfl (Nat.le_succ _) rfl rfl
  | takeTxRequests => exact hquiet _ rfl rfl rfl rfl (Nat.le_refl _) rfl rfl
  | connection context => exact hquiet _ rfl rfl rfl rfl (Nat.le_refl _) rfl rfl
  | requestStop => exact hquiet _ rfl rfl rfl rfl (Nat.le_refl _) rfl rfl

theorem run_consistent (config : FileIoConfig) (steps : List FileSendStep) :
    Consistent config (run config steps) := by
  have key : ∀ (steps : List FileSendStep) (host : FileSendHost), Consistent config host →
      Consistent config (steps.foldl (FileSendHost.step config) host) := by
    intro steps
    induction steps with
    | nil => exact fun host h => h
    | cons step steps ih => exact fun host h => ih _ (h.step step)
  refine key steps {} ⟨Nat.one_pos, fun k job hjob => (by cases hjob), fun k hk => ?_,
    fun k hk => ?_, fun j k hj hk => ?_, fun id hmem => (List.not_mem_nil hmem).elim⟩
  · exact absurd hk.2 (Nat.not_lt.mpr hk.1)
  · exact absurd hk.2 (Nat.not_lt.mpr hk.1)
  · exact absurd hj.2 (Nat.not_lt.mpr hj.1)

/-! ### A file in chunks -/

/-- **The chunks of a job are its file.**  What is issued cuts a beginning of the file without
gaps, each chunk at its offset, and at most a window of it is in flight; a chunk is counted as
finished once.  The job is gone exactly when it failed, or when its reading has ended and
nothing is in flight, and its handle is then closed, once.  A job that reached the end of the
file without a failed read has issued the whole file, where the chunk limit is not zero. -/
theorem file_send_covers_file (config : FileIoConfig) (steps : List FileSendStep) (jobId : Nat)
    (hstarted : Started (run config steps) jobId) :
    let host := run config steps
    let record := host.records jobId
    (∀ job, host.fileSendJobs jobId = some job →
        job.inflight.length ≤ maxInflight config ∧ job.inflight.Nodup ∧
          ∀ id, id ∈ job.inflight ↔ id ∈ issuedIds record ∧ id ∉ record.finished) ∧
      (∃ offset, Slices record.content record.issued offset) ∧
      (record.finished.Nodup ∧ ∀ id ∈ record.finished, id ∈ issuedIds record) ∧
      (host.fileSendJobs jobId = none ↔
        record.failed = true ∨ (record.endReached = true ∨ record.readFailed = true) ∧
          ∀ id ∈ issuedIds record, id ∈ record.finished) ∧
      host.closed.count record.handleId = (if (host.fileSendJobs jobId).isNone then 1 else 0) ∧
      (host.fileSendJobs jobId = none → record.failed = false → record.readFailed = false →
        0 < config.maxChunkBytes → payloads record.issued = record.content) := by
  intro host record
  obtain ⟨hsome, hnone⟩ := (run_consistent config steps).settled jobId hstarted
  cases hjob : host.fileSendJobs jobId with
  | some job =>
    obtain ⟨-, hlive, hflight⟩ := hsome job hjob
    refine ⟨fun job' hjob' => ?_, ⟨_, hlive.slices⟩, ⟨hlive.counted.finished,
      hlive.counted.finished_issued⟩, ⟨fun hgone => (by cases hgone), fun hreason => ?_⟩,
      hlive.closed, fun hgone => (by cases hgone)⟩
    · obtain rfl := Option.some.inj hjob'
      exact ⟨hlive.window, hlive.inflight_nodup, hlive.inflight⟩
    · exfalso
      rcases hreason with hfailed | ⟨hended, hfinished⟩
      · exact absurd (hlive.failed.symm.trans hfailed) (by decide)
      · refine hflight (hlive.eof.mpr hended) (List.eq_nil_iff_forall_not_mem.mpr fun id hid => ?_)
        obtain ⟨hissued, hopen⟩ := (hlive.inflight id).mp hid
        exact hopen (hfinished id hissued)
  | none =>
    have hgone := hnone hjob
    obtain ⟨offset, hslices, hcomplete⟩ := hgone.slices
    refine ⟨fun job' hjob' => (by cases hjob'), ⟨offset, hslices⟩, ⟨hgone.counted.finished,
      hgone.counted.finished_issued⟩, ⟨fun _ => hgone.reason, fun _ => rfl⟩, hgone.closed,
      fun _ hfailed hread hpos => ?_⟩
    have hend : record.endReached = true := by
      rcases hgone.reason with hc | ⟨hc | hc, -⟩
      · exact absurd (hfailed.symm.trans hc) (by decide)
      · exact hc
      · exact absurd (hread.symm.trans hc) (by decide)
    rw [hslices.payloads, hcomplete hend hpos, List.take_length]

/-- Two bytes in chunks of one, with the events of the first chunk twice and of the second. -/
theorem file_send_covers_two_bytes :
    payloads ((run {}
      [.sendFile {} { chunkSize := some 1 } (some [1, 2]) false,
        .txEvent {} { id := 1, kind := .send, state := .sent, tag := "", queuedMs := 0,
                      finishedMs := 0, fileJobId := 1 },
        .txEvent {} { id := 1, kind := .send, state := .sent, tag := "", queuedMs := 0,
                      finishedMs := 0, fileJobId := 1 },
        .txEvent {} { id := 2, kind := .send, state := .sent, tag := "", queuedMs := 0,
                      finishedMs := 0, fileJobId := 1 }]).records 1).issued = [1, 2] :=
  (file_send_covers_file {}
    [.sendFile {} { chunkSize := some 1 } (some [1, 2]) false,
      .txEvent {} { id := 1, kind := .send, state := .sent, tag := "", queuedMs := 0,
                    finishedMs := 0, fileJobId := 1 },
      .txEvent {} { id := 1, kind := .send, state := .sent, tag := "", queuedMs := 0,
                    finishedMs := 0, fileJobId := 1 },
      .txEvent {} { id := 2, kind := .send, state := .sent, tag := "", queuedMs := 0,
                    finishedMs := 0, fileJobId := 1 }] 1 ⟨by decide, by decide⟩).2.2.2.2.2
    (by decide) (by decide) (by decide) (by decide)

/-- With a chunk limit of zero a file of one byte is over without a chunk.  And a read that
fails ends a job of two bytes after its first chunk, which did not fail, before the end. -/
theorem zero_limit_sends_nothing :
    let unread := run { maxChunkBytes := 0 } [.sendFile {} {} (some [1]) false]
    let broken := run {}
      [.sendFile { readFails := fun offset => offset == 1 } { chunkSize := some 1 } (some [1, 2])
          false,
        .txEvent {} { id := 1, kind := .send, state := .sent, tag := "", queuedMs := 0,
                      finishedMs := 0, fileJobId := 1 }]
    ((unread.fileSendJobs 1).isNone ∧ (unread.records 1).failed = false ∧
        (unread.records 1).readFailed = false ∧
        payloads (unread.records 1).issued ≠ (unread.records 1).content) ∧
      (broken.fileSendJobs 1).isNone ∧ (broken.records 1).failed = false ∧
        (broken.records 1).endReached = false ∧ payloads (broken.records 1).issued = [1] := by
  decide

end FileSendHost

end ProtoScope.Scripting
