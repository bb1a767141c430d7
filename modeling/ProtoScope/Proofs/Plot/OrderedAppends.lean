/-
Appending in increasing time.

When the samples of every channel come in strictly increasing time, an append does nothing
but put them behind the others and cut the channel to its limit.  What many of them make of
a buffer is then a matter of what each channel gets: the order between channels and the
grouping into requests leave no trace.
-/
import ProtoScope.Plot.OscilloscopeBuffer

namespace ProtoScope.Plot

open ProtoScope.Library

/-! ### Increasing times -/

def IncreasingTimes (samples : List (WaveSample Float)) : Prop :=
  samples.Pairwise fun first second => first.time.lt second.time = true

theorem not_lt_of_lt {a b : Float} (h : a.lt b = true) : b.lt a = false := by
  rw [Bool.eq_false_iff]
  intro hback
  have hself := FloatOrder.lt_of_lt_of_lt h hback
  rw [FloatOrder.not_lt_self] at hself
  cases hself

theorem isSortedByTime_of_increasing {samples : List (WaveSample Float)}
    (h : IncreasingTimes samples) : isSortedByTime samples = true := by
  induction samples with
  | nil => rfl
  | cons first samples ih =>
    obtain ⟨hfirst, hrest⟩ := List.pairwise_cons.mp h
    cases samples with
    | nil => rfl
    | cons second samples =>
      unfold isSortedByTime
      rw [not_lt_of_lt (hfirst second List.mem_cons_self)]
      exact ih hrest

theorem startsAtHistoryOrigin_false {last : WaveSample Float} {samples : List (WaveSample Float)}
    (h : IncreasingTimes (last :: samples)) : startsAtHistoryOrigin samples last.time = false := by
  cases samples with
  | nil => rfl
  | cons first samples =>
    unfold startsAtHistoryOrigin
    dsimp only
    rw [FloatOrder.not_le_of_lt ((List.pairwise_cons.mp h).1 first List.mem_cons_self)]
    rfl

theorem dropSamples_increasing {last : WaveSample Float} {samples : List (WaveSample Float)}
    (h : IncreasingTimes (last :: samples)) :
    dropSamplesNotAfterLastTime samples last.time = samples := by
  refine List.filter_eq_self.mpr fun sample hmem => ?_
  rw [FloatOrder.not_le_of_lt ((List.pairwise_cons.mp h).1 sample hmem)]
  rfl

/-! ### Limits -/

namespace OscilloscopeBuffer

/-- Cutting twice is cutting once. -/
theorem keepLast_append (limit : Option ℕ) (channel : ChannelBuffer)
    (samples : List (WaveSample Float)) :
    keepLast limit { keepLast limit channel with
        samples := (keepLast limit channel).samples ++ samples } =
      keepLast limit { channel with samples := channel.samples ++ samples } := by
  cases limit with
  | none => rfl
  | some limit =>
    by_cases hfits : channel.samples.length ≤ limit
    · rw [show keepLast (some limit) channel = channel from if_pos hfits]
    · rw [Nat.not_le] at hfits
      have hkept : keepLast (some limit) channel =
          { channel with
            sampleIndexOffset := channel.sampleIndexOffset + (channel.samples.length - limit)
            samples := channel.samples.drop (channel.samples.length - limit) } :=
        if_neg (Nat.not_le.mpr hfits)
      rw [hkept]
      dsimp only
      have hdrop : channel.samples.drop (channel.samples.length - limit) ++ samples =
          (channel.samples ++ samples).drop (channel.samples.length - limit) :=
        (List.drop_append_of_le_length (Nat.sub_le _ _)).symm
      rw [hdrop]
      unfold keepLast
      dsimp only
      rw [List.length_drop, List.length_append,
        if_neg (c := channel.samples.length + samples.length ≤ limit) (by omega)]
      by_cases hempty : samples.length = 0
      · rw [if_pos (by omega), hempty]
        rfl
      · have hoffset : channel.sampleIndexOffset + (channel.samples.length - limit) +
            (channel.samples.length + samples.length - (channel.samples.length - limit) - limit) =
            channel.sampleIndexOffset + (channel.samples.length + samples.length - limit) := by
          omega
        have htotal : channel.samples.length - limit +
            (channel.samples.length + samples.length - (channel.samples.length - limit) - limit) =
            channel.samples.length + samples.length - limit := by
          omega
        rw [if_neg (by omega), List.drop_drop, hoffset, htotal]

variable {buffer : OscilloscopeBuffer}

theorem effectiveLimit_pos {limit : ℕ} (h : buffer.effectiveLimit = some limit) : 0 < limit := by
  unfold effectiveLimit at h
  split at h
  · cases h
  · split at h
    · split at h
      · obtain rfl := Option.some.inj h
        omega
      · obtain rfl := Option.some.inj h
        assumption
    · split at h
      · obtain rfl := Option.some.inj h
        assumption
      · cases h

/-- A channel that is cut keeps its last sample. -/
theorem getLast?_keepLast {limit : Option ℕ} (hpos : ∀ n, limit = some n → 0 < n)
    (channel : ChannelBuffer) :
    (keepLast limit channel).samples.getLast? = channel.samples.getLast? := by
  cases limit with
  | none => rfl
  | some limit =>
    have hlimit := hpos limit rfl
    unfold keepLast
    dsimp only
    split
    · rfl
    · show (channel.samples.drop _).getLast? = _
      rw [List.getLast?_drop, if_neg (by omega)]

/-- What an append of prepared samples makes of a channel. -/
def extendChannel (limit : Option ℕ) (samples : List (WaveSample Float))
    (channel : ChannelBuffer) : ChannelBuffer :=
  if samples = [] then channel
  else keepLast limit { channel with samples := channel.samples ++ samples }

theorem extendChannel_append (limit : Option ℕ) (first second : List (WaveSample Float))
    (channel : ChannelBuffer) :
    extendChannel limit second (extendChannel limit first channel) =
      extendChannel limit (first ++ second) channel := by
  unfold extendChannel
  by_cases hsecond : second = []
  · rw [if_pos hsecond, hsecond, List.append_nil]
  · by_cases hfirst : first = []
    · rw [if_neg hsecond, if_pos hfirst, hfirst, List.nil_append, if_neg hsecond]
    · rw [if_neg hsecond, if_neg hfirst, if_neg fun h => hfirst (List.append_eq_nil_iff.mp h).1,
        keepLast_append, List.append_assoc]

/-! ### Growing -/

/-- The name a channel of that position goes by. -/
def labelOf (index : ℕ) (spec : ChannelSpec) : ChannelSpec :=
  if spec.label = [] then { spec with label := defaultLabel index } else spec

theorem labelled_eq (index : ℕ) (channel : ChannelBuffer) :
    labelled index channel = { channel with spec := labelOf index channel.spec } := by
  unfold labelled labelOf
  split <;> rfl

theorem labelOf_labelOf (index : ℕ) (spec : ChannelSpec) :
    labelOf index (labelOf index spec) = labelOf index spec := by
  unfold labelOf
  by_cases hlabel : spec.label = []
  · rw [if_pos hlabel, ite_self]
  · rw [if_neg hlabel, if_neg hlabel]

theorem labelled_labelled (index : ℕ) (channel : ChannelBuffer) :
    labelled index (labelled index channel) = labelled index channel := by
  rw [labelled_eq, labelled_eq]
  dsimp only
  rw [labelOf_labelOf]

theorem keepLast_labelled (limit : Option ℕ) (index : ℕ) (channel : ChannelBuffer) :
    keepLast limit (labelled index channel) = labelled index (keepLast limit channel) := by
  rw [labelled_eq, labelled_eq]
  cases limit with
  | none => rfl
  | some limit =>
    unfold keepLast
    dsimp only
    split <;> rfl

theorem extendChannel_labelled (limit : Option ℕ) (samples : List (WaveSample Float))
    (index : ℕ) (channel : ChannelBuffer) :
    extendChannel limit samples (labelled index channel) =
      labelled index (extendChannel limit samples channel) := by
  unfold extendChannel
  split
  · rfl
  · rw [← keepLast_labelled, labelled_eq, labelled_eq]

/-- The channels once there are at least so many. -/
def grown (count : ℕ) (channels : List ChannelBuffer) : List ChannelBuffer :=
  if channels.length < count then (resized count channels).mapIdx labelled else channels

/-- A channel that may have to be made first. -/
def grownChannel (count : ℕ) (channels : List ChannelBuffer) (index : ℕ) : Option ChannelBuffer :=
  if channels.length < count then
    if index < count then some (labelled index (channels.getD index default)) else none
  else channels[index]?

theorem getElem?_grown (count : ℕ) (channels : List ChannelBuffer) (index : ℕ) :
    (grown count channels)[index]? = grownChannel count channels index := by
  unfold grown grownChannel
  split
  · rename_i hgrows
    unfold resized
    rw [List.getElem?_mapIdx, List.take_of_length_le (Nat.le_of_lt hgrows), List.getElem?_append,
      List.getD_eq_getElem?_getD]
    by_cases hindex : index < channels.length
    · rw [if_pos hindex, if_pos (Nat.lt_trans hindex hgrows), List.getElem?_eq_getElem hindex]
      rfl
    · rw [if_neg hindex, List.getElem?_eq_none (Nat.not_lt.mp hindex), List.getElem?_replicate]
      by_cases hcount : index < count
      · rw [if_pos hcount, if_pos (by omega)]
        rfl
      · rw [if_neg hcount, if_neg (by omega)]
        rfl
  · rfl

theorem length_grown (count : ℕ) (channels : List ChannelBuffer) :
    (grown count channels).length = max channels.length count := by
  unfold grown
  split
  · unfold resized
    rw [List.length_mapIdx, List.length_append, List.length_take, List.length_replicate]
    omega
  · omega

theorem grown_grown (first second : ℕ) (channels : List ChannelBuffer) :
    grown second (grown first channels) = grown (max first second) channels := by
  refine List.ext_getElem? fun index => ?_
  rw [getElem?_grown, getElem?_grown]
  unfold grownChannel
  rw [length_grown, List.getD_eq_getElem?_getD, getElem?_grown]
  unfold grownChannel
  by_cases hfirst : channels.length < first
  · rw [if_pos hfirst, if_pos (c := channels.length < max first second) (by omega)]
    by_cases hsecond : max channels.length first < second
    · rw [if_pos hsecond, show max first second = second by omega]
      by_cases hindex : index < second
      · rw [if_pos hindex, if_pos hindex]
        by_cases hinner : index < first
        · rw [if_pos hinner]
          exact congrArg some (labelled_labelled _ _)
        · rw [if_neg hinner, List.getD_eq_getElem?_getD, List.getElem?_eq_none (by omega)]
      · rw [if_neg hindex, if_neg hindex]
    · rw [if_neg hsecond, show max first second = first by omega]
  · rw [if_neg hfirst, show max channels.length first = channels.length by omega]
    by_cases hsecond : channels.length < second
    · rw [if_pos hsecond, if_pos (c := channels.length < max first second) (by omega),
        show max first second = second by omega, ← List.getD_eq_getElem?_getD]
    · rw [if_neg hsecond, if_neg (c := channels.length < max first second) (by omega)]

/-- An update that leaves labels alone can as well come before the growing. -/
theorem grown_modify {count index : ℕ} {channels : List ChannelBuffer}
    (hindex : index < channels.length) {update : ChannelBuffer → ChannelBuffer}
    (hupdate : ∀ channel, update (labelled index channel) = labelled index (update channel)) :
    grown count (channels.modify index update) = (grown count channels).modify index update := by
  refine List.ext_getElem? fun other => ?_
  rw [getElem?_grown, List.getElem?_modify, getElem?_grown]
  unfold grownChannel
  rw [List.length_modify, List.getD_eq_getElem?_getD, List.getElem?_modify]
  by_cases hgrows : channels.length < count
  · rw [if_pos hgrows, if_pos hgrows]
    by_cases hother : other < count
    · rw [if_pos hother, if_pos hother]
      by_cases hsame : index = other
      · subst hsame
        rw [List.getElem?_eq_getElem hindex, List.getD_eq_getElem?_getD,
          List.getElem?_eq_getElem hindex]
        show some (labelled index (if index = index then update channels[index] else _)) =
          some (if index = index then update (labelled index channels[index]) else _)
        rw [if_pos rfl, if_pos rfl, hupdate]
      · have hid : (fun channel => if index = other then update channel else channel) = id :=
          funext fun channel => if_neg hsame
        rw [hid, id_map, id_map, List.getD_eq_getElem?_getD]
    · rw [if_neg hother, if_neg hother]
      rfl
  · rw [if_neg hgrows, if_neg hgrows]

/-! ### One append -/

/-- The samples that are for a channel, in order. -/
def channelSamples (index : ℕ) (appends : List (ℕ × WaveAppendRequest)) :
    List (WaveSample Float) :=
  appends.flatMap fun append => if append.1 = index then append.2.samples else []

def samplesAt (buffer : OscilloscopeBuffer) (index : ℕ) : List (WaveSample Float) :=
  (buffer.channels.getD index default).samples

/-- Of every channel the times increase, from its last sample on. -/
def Increasing (buffer : OscilloscopeBuffer) (appends : List (ℕ × WaveAppendRequest)) : Prop :=
  ∀ index, IncreasingTimes ((buffer.lastSample index).toList ++ channelSamples index appends)

/-- Samples go behind those of their channel, which is made if it is not there. -/
def extended (buffer : OscilloscopeBuffer) (index : ℕ) (samples : List (WaveSample Float)) :
    OscilloscopeBuffer :=
  if samples = [] then buffer
  else
    { buffer with
      channels := (grown (index + 1) buffer.channels).modify index
        (extendChannel buffer.effectiveLimit samples) }

theorem ensureChannel_eq (buffer : OscilloscopeBuffer) (index : ℕ) :
    buffer.ensureChannel index = { buffer with channels := grown (index + 1) buffer.channels } := by
  unfold ensureChannel grown configureChannels
  by_cases hlength : buffer.channels.length ≤ index
  · rw [if_pos hlength, if_pos (Nat.lt_succ_of_le hlength)]
  · rw [if_neg hlength, if_neg (by omega)]

theorem samplesAt_grown (count index : ℕ) (channels : List ChannelBuffer) :
    ((grown count channels).getD index default).samples =
      (channels.getD index default).samples := by
  rw [List.getD_eq_getElem?_getD, getElem?_grown]
  unfold grownChannel
  by_cases hgrows : channels.length < count
  · rw [if_pos hgrows]
    by_cases hindex : index < count
    · rw [if_pos hindex]
      exact labelled_eq index _ ▸ rfl
    · rw [if_neg hindex, List.getD_eq_getElem?_getD, List.getElem?_eq_none (by omega)]
  · rw [if_neg hgrows, List.getD_eq_getElem?_getD]

theorem lastSample_ensureChannel (buffer : OscilloscopeBuffer) (index other : ℕ) :
    (buffer.ensureChannel index).lastSample other = buffer.lastSample other := by
  rw [ensureChannel_eq]
  exact congrArg List.getLast? (samplesAt_grown (index + 1) other buffer.channels)

/-- In increasing time an append is nothing else. -/
theorem append_increasing (sort : SampleOrder) {index : ℕ} {request : WaveAppendRequest}
    (h : IncreasingTimes ((buffer.lastSample index).toList ++ request.samples)) :
    buffer.append sort index request = buffer.extended index request.samples := by
  unfold append extended
  by_cases hempty : request.samples = []
  · rw [if_pos hempty, if_pos hempty]
  · rw [if_neg hempty, if_neg hempty, lastSample_ensureChannel]
    have hsorted : sortSamplesByTime sort request.samples = request.samples :=
      if_pos (isSortedByTime_of_increasing (List.pairwise_append.mp h).2.1)
    have hprepared (buffer' : OscilloscopeBuffer) :
        buffer'.appendPreparedSamples index request.samples =
          buffer'.updateChannel index (extendChannel buffer'.effectiveLimit request.samples) := by
      unfold appendPreparedSamples extendChannel trimHistory
      rw [if_neg hempty]
      congr 1
      funext channel
      rw [if_neg hempty]
    have happend : (buffer.ensureChannel index).appendSorted index request.samples
        (buffer.lastSample index) =
          (buffer.ensureChannel index).appendPreparedSamples index request.samples := by
      unfold appendSorted
      cases hlast : buffer.lastSample index with
      | none => rfl
      | some last =>
        rw [hlast] at h
        replace h : IncreasingTimes (last :: request.samples) := h
        dsimp only
        rw [startsAtHistoryOrigin_false h, dropSamples_increasing h]
        rfl
    rw [hsorted, happend, hprepared, ensureChannel_eq]
    rfl

/-! ### Many appends -/

def appendAll (sort : SampleOrder) (buffer : OscilloscopeBuffer)
    (appends : List (ℕ × WaveAppendRequest)) : OscilloscopeBuffer :=
  appends.foldl (fun buffer append => buffer.append sort append.1 append.2) buffer

/-- How many channels the appends need. -/
def channelsNeeded : List (ℕ × WaveAppendRequest) → ℕ
  | [] => 0
  | append :: appends =>
    if append.2.samples = [] then channelsNeeded appends
    else max (append.1 + 1) (channelsNeeded appends)

/-- Every channel gets its own samples. -/
def allExtended (buffer : OscilloscopeBuffer) (appends : List (ℕ × WaveAppendRequest)) :
    OscilloscopeBuffer :=
  { buffer with
    channels := (grown (channelsNeeded appends) buffer.channels).mapIdx fun index channel =>
      extendChannel buffer.effectiveLimit (channelSamples index appends) channel }

theorem channelSamples_cons (index : ℕ) (append : ℕ × WaveAppendRequest)
    (appends : List (ℕ × WaveAppendRequest)) :
    channelSamples index (append :: appends) =
      (if append.1 = index then append.2.samples else []) ++ channelSamples index appends :=
  List.flatMap_cons

theorem lastSample_extended (buffer : OscilloscopeBuffer) (index other : ℕ)
    (samples : List (WaveSample Float)) :
    (buffer.extended index samples).lastSample other =
      if index = other then (buffer.samplesAt other ++ samples).getLast?
      else buffer.lastSample other := by
  unfold extended
  by_cases hempty : samples = []
  · rw [if_pos hempty, hempty, List.append_nil]
    split <;> rfl
  · rw [if_neg hempty]
    have hsame := samplesAt_grown (index + 1) other buffer.channels
    have hlength := length_grown (index + 1) buffer.channels
    unfold lastSample
    dsimp only
    rw [List.getD_eq_getElem?_getD, List.getElem?_modify]
    by_cases hother : index = other
    · subst hother
      have hin : index < (grown (index + 1) buffer.channels).length := by omega
      rw [if_pos rfl, List.getElem?_eq_getElem hin]
      show (if index = index then extendChannel buffer.effectiveLimit samples _ else _).samples.getLast? = _
      rw [if_pos rfl]
      rw [List.getD_eq_getElem?_getD, List.getElem?_eq_getElem hin] at hsame
      replace hsame : (grown (index + 1) buffer.channels)[index].samples = buffer.samplesAt index :=
        hsame
      unfold extendChannel
      rw [if_neg hempty, getLast?_keepLast fun n hn => effectiveLimit_pos hn]
      dsimp only
      rw [hsame]
    · have hid : (fun channel => if index = other then
          extendChannel buffer.effectiveLimit samples channel else channel) = id :=
        funext fun channel => if_neg hother
      rw [if_neg hother, hid, id_map, ← List.getD_eq_getElem?_getD, hsame]

/-- The rest of the samples still increases once the first request is appended. -/
theorem increasing_extended {append : ℕ × WaveAppendRequest}
    {appends : List (ℕ × WaveAppendRequest)} (h : Increasing buffer (append :: appends)) :
    Increasing (buffer.extended append.1 append.2.samples) appends := by
  intro index
  have hindex := h index
  rw [channelSamples_cons] at hindex
  rw [lastSample_extended]
  by_cases hsame : append.1 = index
  · rw [if_pos hsame] at hindex ⊢
    refine List.Pairwise.sublist ?_ hindex
    rw [← List.append_assoc]
    refine List.Sublist.append_right ?_ _
    cases hsamples : append.2.samples with
    | nil =>
      rw [List.append_nil, List.append_nil]
      exact List.Sublist.refl _
    | cons sample samples =>
      rw [List.getLast?_append_of_ne_nil _ (List.cons_ne_nil _ _),
        List.getLast?_eq_some_getLast (List.cons_ne_nil _ _)]
      refine List.Sublist.trans ?_ (List.sublist_append_right _ _)
      exact List.singleton_sublist.mpr (List.getLast_mem _)
  · rw [if_neg hsame] at hindex ⊢
    exact hindex

theorem increasing_head {append : ℕ × WaveAppendRequest} {appends : List (ℕ × WaveAppendRequest)}
    (h : Increasing buffer (append :: appends)) :
    IncreasingTimes ((buffer.lastSample append.1).toList ++ append.2.samples) := by
  have hindex := h append.1
  rw [channelSamples_cons, if_pos rfl, ← List.append_assoc] at hindex
  exact (List.pairwise_append.mp hindex).1

/-- What is appended first may as well be counted with the rest. -/
theorem allExtended_extended (buffer : OscilloscopeBuffer) (append : ℕ × WaveAppendRequest)
    (appends : List (ℕ × WaveAppendRequest)) :
    (buffer.extended append.1 append.2.samples).allExtended appends =
      buffer.allExtended (append :: appends) := by
  unfold extended
  by_cases hempty : append.2.samples = []
  · rw [if_pos hempty]
    unfold allExtended
    rw [channelsNeeded, if_pos hempty]
    congr 2
    funext index channel
    rw [channelSamples_cons, hempty, ite_self, List.nil_append]
  · rw [if_neg hempty]
    unfold allExtended
    dsimp only
    rw [channelsNeeded, if_neg hempty]
    have hin : append.1 < (grown (append.1 + 1) buffer.channels).length := by
      rw [length_grown]
      omega
    rw [grown_modify hin fun channel => extendChannel_labelled _ _ _ channel, grown_grown]
    congr 1
    refine List.ext_getElem? fun index => ?_
    rw [List.getElem?_mapIdx, List.getElem?_mapIdx, List.getElem?_modify]
    cases (grown (max (append.1 + 1) (channelsNeeded appends)) buffer.channels)[index]? with
    | none => rfl
    | some channel =>
      refine congrArg some ?_
      rw [channelSamples_cons]
      show extendChannel buffer.effectiveLimit _ (if append.1 = index then
        extendChannel buffer.effectiveLimit append.2.samples channel else channel) = _
      by_cases hsame : append.1 = index
      · rw [if_pos hsame, if_pos hsame, extendChannel_append]
      · rw [if_neg hsame, if_neg hsame, List.nil_append]

theorem allExtended_nil (buffer : OscilloscopeBuffer) : buffer.allExtended [] = buffer := by
  unfold allExtended
  rw [show grown (channelsNeeded []) buffer.channels = buffer.channels from
    if_neg (Nat.not_lt_zero _)]
  have hid : (fun (index : ℕ) (channel : ChannelBuffer) =>
      extendChannel buffer.effectiveLimit (channelSamples index []) channel) = fun _ => id :=
    funext fun index => funext fun channel => if_pos rfl
  rw [hid, List.mapIdx_eq_zipIdx_map]
  rw [show (fun pair : ChannelBuffer × ℕ => id pair.1) = Prod.fst from rfl, List.zipIdx_map_fst]

/-- **In increasing time, appends give every channel its own samples and do nothing else.** -/
theorem appendAll_increasing (sort : SampleOrder) (appends : List (ℕ × WaveAppendRequest))
    (h : Increasing buffer appends) :
    buffer.appendAll sort appends = buffer.allExtended appends := by
  induction appends generalizing buffer with
  | nil => exact (allExtended_nil buffer).symm
  | cons append appends ih =>
    show (buffer.append sort append.1 append.2).appendAll sort appends = _
    rw [append_increasing sort (increasing_head h), ih (increasing_extended h),
      allExtended_extended]

theorem channelsNeeded_le_iff {count : ℕ} (appends : List (ℕ × WaveAppendRequest)) :
    channelsNeeded appends ≤ count ↔ ∀ index, channelSamples index appends ≠ [] → index < count := by
  induction appends with
  | nil => exact ⟨fun _ _ h => absurd rfl h, fun _ => Nat.zero_le _⟩
  | cons append appends ih =>
    unfold channelsNeeded
    by_cases hempty : append.2.samples = []
    · rw [if_pos hempty, ih]
      have hcons (index : ℕ) : channelSamples index (append :: appends) =
          channelSamples index appends := by
        rw [channelSamples_cons, hempty, ite_self, List.nil_append]
      simp only [hcons]
    · rw [if_neg hempty, Nat.max_le, ih]
      constructor
      · rintro ⟨hfirst, hrest⟩ index hne
        by_cases hsame : append.1 = index
        · omega
        · rw [channelSamples_cons, if_neg hsame, List.nil_append] at hne
          exact hrest index hne
      · intro hall
        constructor
        · refine hall append.1 ?_
          rw [channelSamples_cons, if_pos rfl]
          exact fun hnil => hempty (List.append_eq_nil_iff.mp hnil).1
        · intro index hne
          refine hall index ?_
          rw [channelSamples_cons]
          exact fun hnil => hne (List.append_eq_nil_iff.mp hnil).2

/-- **Appends that give every channel the same samples in the same order come to the same.** -/
theorem appendAll_congr (sort : SampleOrder) {first second : List (ℕ × WaveAppendRequest)}
    (h : Increasing buffer first)
    (hsame : ∀ index, channelSamples index second = channelSamples index first) :
    buffer.appendAll sort second = buffer.appendAll sort first := by
  have hsecond : Increasing buffer second := fun index => by
    rw [hsame index]
    exact h index
  have hneeded : channelsNeeded second = channelsNeeded first := by
    refine Nat.le_antisymm ?_ ?_
    · rw [channelsNeeded_le_iff]
      intro index hne
      rw [hsame index] at hne
      exact (channelsNeeded_le_iff first).mp (Nat.le_refl _) index hne
    · rw [channelsNeeded_le_iff]
      intro index hne
      rw [← hsame index] at hne
      exact (channelsNeeded_le_iff second).mp (Nat.le_refl _) index hne
  rw [appendAll_increasing sort second hsecond, appendAll_increasing sort first h]
  unfold allExtended
  rw [hneeded]
  congr 2
  funext index channel
  rw [hsame index]

end OscilloscopeBuffer

end ProtoScope.Plot
