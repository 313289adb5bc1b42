import Dtj.Explorer.Runs

/-!
# The explorer: the process of a request

`packages/dtj-vscode/src/processRunner.ts`: what `defaultProcessRunner` hears of the process and of the signal of
the request, in whatever order it comes, until the promise is settled.  With `UiSessionClient.run` at its end this
is the whole of a request.

* `Capture.push`        one chunk of a pipe, of which `max` bytes are kept;
* `Runner.hear`         one event;
* `Captures.pushes`     the chunks are the first bytes of the pipe, and the flag says if there are more;
* `Kept.run`            so it stays for as long as the promise is open;
* `answer_whole`        **a request is answered with the whole of what the process printed, or not at all**.
-/

namespace Dtj.Explorer
open Wire
open Sdk.TypeScript (Str units)

/-! ## a pipe -/

/-- `stdoutChunks`, `stdoutLen`, `stdoutTruncated`, and those of the standard error -/
structure Capture where
  chunks : List Bytes
  len : Nat
  truncated : Bool

def Capture.empty : Capture := ⟨[], 0, false⟩

/-- the handler of `data` -/
def Capture.push (max : Nat) (c : Capture) (chunk : Bytes) : Capture :=
  if c.len ≥ max then { c with truncated := true }
  else if chunk.length > max - c.len then ⟨c.chunks ++ [chunk.take (max - c.len)], max, true⟩
  else { c with chunks := c.chunks ++ [chunk], len := c.len + chunk.length }

/-- the chunk that fills the pipe is the one that ends the process -/
def Capture.overflows (max : Nat) (c : Capture) (chunk : Bytes) : Bool := c.len < max && chunk.length > max - c.len

/-- what is captured of a pipe that brought `bytes` -/
structure Captures (max : Nat) (bytes : Bytes) (c : Capture) : Prop where
  chunks : c.chunks.flatten = bytes.take max
  len : c.len = min bytes.length max
  truncated : c.truncated = true ↔ max < bytes.length

variable {max : Nat} {bytes chunk : Bytes} {c : Capture}

theorem Captures.empty : Captures max [] Capture.empty := by
  refine ⟨?_, ?_, ?_⟩
  · rw [List.take_nil]
    rfl
  · exact (Nat.zero_min max).symm
  · simp [Capture.empty]

theorem Captures.push (h : Captures max bytes c) (hchunk : chunk ≠ []) :
    Captures max (bytes ++ chunk) (c.push max chunk) := by
  have hpos : 0 < chunk.length := List.length_pos_iff.mpr hchunk
  have hlen := h.len
  unfold Capture.push
  split
  · next hfull =>
    have hmax : max ≤ bytes.length := by omega
    refine ⟨?_, ?_, ?_⟩
    · rw [List.take_append_of_le_length hmax]
      exact h.chunks
    · show c.len = min (bytes ++ chunk).length max
      rw [List.length_append]
      omega
    · rw [List.length_append]
      exact iff_of_true rfl (by omega)
  · next hroom =>
    have hall : bytes.length < max := by omega
    have hlen' : c.len = bytes.length := by omega
    have hchunks : c.chunks.flatten = bytes := by rw [h.chunks, List.take_of_length_le hall.le]
    split
    · next hover =>
      refine ⟨?_, ?_, ?_⟩
      · rw [List.flatten_append, hchunks, List.flatten_singleton, hlen', List.take_append,
          List.take_of_length_le hall.le]
      · show max = min (bytes ++ chunk).length max
        rw [List.length_append]
        omega
      · rw [List.length_append]
        exact iff_of_true rfl (by omega)
    · next hfits =>
      refine ⟨?_, ?_, ?_⟩
      · rw [List.flatten_append, hchunks, List.flatten_singleton, List.take_of_length_le]
        rw [List.length_append]
        omega
      · show c.len + chunk.length = min (bytes ++ chunk).length max
        rw [List.length_append, hlen']
        omega
      · rw [List.length_append, h.truncated]
        omega

theorem Captures.overflows (h : Captures max bytes c) (ho : c.overflows max chunk = true) :
    max < (bytes ++ chunk).length := by
  have hlen := h.len
  rw [Capture.overflows, Bool.and_eq_true, decide_eq_true_eq, decide_eq_true_eq] at ho
  rw [List.length_append]
  omega

/-! ## the source -/

/-- `ProcessRunResult` with the fields that `UiSessionClient.run` does not read -/
structure RunResult extends ProcessRunResult where
  stderr : Str
  stderrTruncated : Bool

/-- what the runner hears -/
inductive Heard where
  | stdout (chunk : Bytes)
  | stderr (chunk : Bytes)
  /-- the timer -/
  | timeout
  /-- the signal of the request -/
  | abort
  /-- `child.on("error")` -/
  | error
  | close (code : Option Int)

/-- what has become of the promise, and whether the signal was aborted by then -/
inductive Settled where
  | rejected (aborted : Bool)
  | resolved (aborted : Bool) (result : RunResult)

/-- the variables of `defaultProcessRunner`; `aborted` is that of the signal -/
structure Runner where
  stdout : Capture
  stderr : Capture
  killed : Bool
  timedOut : Bool
  aborted : Bool
  settled : Option Settled

def STDOUT_MAX_BYTES : Nat := 2097152
def STDERR_MAX_BYTES : Nat := 64 * 1024

/-- `Buffer.concat(chunks).toString("utf8")` -/
def Capture.text (c : Capture) : Str := units (fromUtf8Lossy c.chunks.flatten)

def Runner.result (r : Runner) (exitCode : Option Int) : RunResult :=
  { stdout := r.stdout.text
    stderr := r.stderr.text
    exitCode
    killed := r.killed
    timedOut := r.timedOut
    stdoutTruncated := r.stdout.truncated
    stderrTruncated := r.stderr.truncated }

/-- the process has been spawned, on a signal that is new -/
def Runner.start : Runner := ⟨.empty, .empty, false, false, false, none⟩

/-- once the promise is settled there is no timer, and nothing listens to the signal -/
def Runner.hear (r : Runner) : Heard → Runner
  | .stdout chunk =>
    { r with
      stdout := r.stdout.push STDOUT_MAX_BYTES chunk
      killed := r.killed || r.stdout.overflows STDOUT_MAX_BYTES chunk }
  | .stderr chunk => { r with stderr := r.stderr.push STDERR_MAX_BYTES chunk }
  | .timeout => if r.settled.isSome then r else { r with timedOut := true, killed := true }
  | .abort => if r.settled.isSome then { r with aborted := true } else { r with aborted := true, killed := true }
  | .error => if r.settled.isSome then r else { r with settled := some (.rejected r.aborted) }
  | .close code =>
    if r.settled.isSome then r else { r with settled := some (.resolved r.aborted (r.result code)) }

def Runner.run (r : Runner) (es : List Heard) : Runner := es.foldl Runner.hear r

/-- `UiSessionClient.run` goes on with what the promise has become -/
def Settled.answer {V : Type} (host : Host V) (operation : UiOperation) : Settled → Except ClientError V
  | .rejected aborted => UiSessionClient.run host operation aborted .rejected
  | .resolved aborted result => UiSessionClient.run host operation aborted (.resolved result.toProcessRunResult)

/-- the answer to a request, once there is one -/
def answer {V : Type} (host : Host V) (operation : UiOperation) (es : List Heard) : Option (Except ClientError V) :=
  (Runner.start.run es).settled.map (Settled.answer host operation)

/-! ## while the promise is open -/

/-- what the process has printed -/
def output : List Heard → Bytes
  | [] => []
  | .stdout chunk :: es => chunk ++ output es
  | _ :: es => output es

theorem output_append (es es' : List Heard) : output (es ++ es') = output es ++ output es' := by
  induction es with
  | nil => rfl
  | cons e es ih =>
    cases e with
    | stdout chunk =>
      show chunk ++ output (es ++ es') = chunk ++ output es ++ output es'
      rw [ih, List.append_assoc]
    | stderr => exact ih
    | timeout => exact ih
    | abort => exact ih
    | error => exact ih
    | close => exact ih

/-- the events that settle the promise -/
def Heard.settles : Heard → Bool
  | .error => true
  | .close _ => true
  | _ => false

/-- the runner after the events `es`, none of which settles the promise -/
structure Kept (es : List Heard) (r : Runner) : Prop where
  stdout : Captures STDOUT_MAX_BYTES (output es) r.stdout
  aborted : r.aborted = true ↔ Heard.abort ∈ es
  timedOut : r.timedOut = true ↔ Heard.timeout ∈ es
  killed : r.killed = true → Heard.abort ∈ es ∨ Heard.timeout ∈ es ∨ STDOUT_MAX_BYTES < (output es).length
  settled : r.settled = none

variable {es : List Heard} {r : Runner} {e : Heard}

theorem output_silent (he : ∀ chunk, e ≠ .stdout chunk) : output (es ++ [e]) = output es := by
  rw [output_append]
  cases e with
  | stdout chunk => exact absurd rfl (he chunk)
  | stderr => exact List.append_nil _
  | timeout => exact List.append_nil _
  | abort => exact List.append_nil _
  | error => exact List.append_nil _
  | close => exact List.append_nil _

theorem Kept.start : Kept [] Runner.start := by
  refine ⟨.empty, ?_, ?_, fun h => ?_, rfl⟩
  · exact iff_of_false Bool.false_ne_true List.not_mem_nil
  · exact iff_of_false Bool.false_ne_true List.not_mem_nil
  · cases h

theorem Kept.hear (h : Kept es r) (hchunk : e ≠ .stdout []) (he : e.settles = false) : Kept (es ++ [e]) (r.hear e) := by
  have hopen : r.settled.isSome = false := by rw [h.settled]; rfl
  cases e with
  | stdout chunk =>
    have hne : chunk ≠ [] := fun hnil => hchunk (congrArg Heard.stdout hnil)
    have houtput : output (es ++ [.stdout chunk]) = output es ++ chunk := by
      rw [output_append]
      exact congrArg (output es ++ ·) (List.append_nil chunk)
    have habort : Heard.abort ∈ es ++ [.stdout chunk] ↔ Heard.abort ∈ es := by simp
    have htimeout : Heard.timeout ∈ es ++ [.stdout chunk] ↔ Heard.timeout ∈ es := by simp
    refine ⟨houtput ▸ h.stdout.push hne, h.aborted.trans habort.symm, h.timedOut.trans htimeout.symm, ?_, h.settled⟩
    rw [habort, htimeout, houtput]
    intro hkilled
    rcases (Bool.or_eq_true _ _).mp hkilled with hk | ho
    · rcases h.killed hk with ha | ht | hlong
      · exact .inl ha
      · exact .inr (.inl ht)
      · rw [List.length_append]
        exact .inr (.inr (by omega))
    · exact .inr (.inr (h.stdout.overflows ho))
  | stderr chunk =>
    have houtput : output (es ++ [.stderr chunk]) = output es := output_silent fun _ => by simp
    have habort : Heard.abort ∈ es ++ [.stderr chunk] ↔ Heard.abort ∈ es := by simp
    have htimeout : Heard.timeout ∈ es ++ [.stderr chunk] ↔ Heard.timeout ∈ es := by simp
    refine ⟨houtput ▸ h.stdout, h.aborted.trans habort.symm, h.timedOut.trans htimeout.symm, ?_, h.settled⟩
    rw [habort, htimeout, houtput]
    exact h.killed
  | timeout =>
    have houtput : output (es ++ [.timeout]) = output es := output_silent fun _ => by simp
    have habort : Heard.abort ∈ es ++ [.timeout] ↔ Heard.abort ∈ es := by simp
    have htimeout : Heard.timeout ∈ es ++ [.timeout] := by simp
    rw [Runner.hear, hopen]
    exact ⟨houtput ▸ h.stdout, h.aborted.trans habort.symm, iff_of_true rfl htimeout, fun _ => .inr (.inl htimeout),
      h.settled⟩
  | abort =>
    have houtput : output (es ++ [.abort]) = output es := output_silent fun _ => by simp
    have habort : Heard.abort ∈ es ++ [.abort] := by simp
    have htimeout : Heard.timeout ∈ es ++ [.abort] ↔ Heard.timeout ∈ es := by simp
    rw [Runner.hear, hopen]
    exact ⟨houtput ▸ h.stdout, iff_of_true rfl habort, h.timedOut.trans htimeout.symm, fun _ => .inl habort, h.settled⟩
  | error => cases he
  | close => cases he

theorem Runner.run_append (es es' : List Heard) : r.run (es ++ es') = (r.run es).run es' := List.foldl_append

theorem Kept.run (hchunks : Heard.stdout [] ∉ es) (hopen : ∀ x ∈ es, x.settles = false) :
    Kept es (Runner.start.run es) := by
  induction es using List.reverseRecOn with
  | nil => exact .start
  | append_singleton es e ih =>
    have hlast : e ∈ es ++ [e] := List.mem_append_right _ (List.mem_singleton_self e)
    rw [Runner.run_append]
    refine (ih (fun hmem => hchunks (List.mem_append_left _ hmem)) fun x hx => hopen x (List.mem_append_left _ hx)).hear
      ?_ (hopen e hlast)
    rintro rfl
    exact hchunks hlast

/-- what has become of the promise stays -/
theorem settled_hear (h : r.settled.isSome = true) (e : Heard) : (r.hear e).settled = r.settled := by
  cases e with
  | stdout => rfl
  | stderr => rfl
  | timeout => rw [Runner.hear, if_pos h]
  | abort => rw [Runner.hear, if_pos h]
  | error => rw [Runner.hear, if_pos h]
  | close => rw [Runner.hear, if_pos h]

theorem settled_run (h : r.settled.isSome = true) (es : List Heard) : (r.run es).settled = r.settled := by
  induction es generalizing r with
  | nil => rfl
  | cons e es ih =>
    have he := settled_hear h e
    exact (ih (by rw [he]; exact h)).trans he

/-! ## the answer -/

section
variable {V : Type} {host : Host V} {operation : UiOperation} {v : V}

/-- the end of `run` for a result of the runner -/
theorem run_resolved_iff {aborted : Bool} {result : RunResult}
    (hkilled : result.killed = true → aborted = true ∨ result.timedOut = true ∨ result.stdoutTruncated = true) :
    UiSessionClient.run host operation aborted (.resolved result.toProcessRunResult) = .ok v ↔
      aborted = false ∧ result.timedOut = false ∧ result.stdoutTruncated = false ∧
        (result.exitCode = some 0 ∨ result.exitCode = some 2 ∨ result.exitCode = none) ∧
        host.decode operation result.stdout = .ok v := by
  unfold UiSessionClient.run
  dsimp only
  split
  · next ha => simp [ha]
  split
  · next ht => simp [ht]
  split
  · next hs => simp [hs]
  next ha ht hs =>
  have hnot : result.killed = false := by
    rw [← Bool.not_eq_true]
    intro hk
    rcases hkilled hk with h | h | h
    · exact ha h
    · exact ht h
    · exact hs h
  rw [Bool.not_eq_true] at ha ht hs
  split
  · next hcode =>
    obtain ⟨h0, h2, hnone, -⟩ := hcode
    simp [h0, h2, hnone]
  · next hcode =>
    have hcodes : result.exitCode = some 0 ∨ result.exitCode = some 2 ∨ result.exitCode = none := by
      by_contra hno
      push Not at hno
      exact hcode ⟨hno.1, hno.2.1, hno.2.2, by rw [hnot]; exact Bool.false_ne_true⟩
    simp [ha, ht, hs, hcodes]

/-- the text that the process printed, if all of it was kept -/
theorem Kept.text (h : Kept es r) (hfits : (output es).length ≤ STDOUT_MAX_BYTES) :
    r.stdout.text = units (fromUtf8Lossy (output es)) := by
  rw [Capture.text, h.stdout.chunks, List.take_of_length_le hfits]

theorem Kept.settled_run (h : Kept es (Runner.start.run es)) (he : e.settles = true) (after : List Heard) :
    (Runner.start.run (es ++ e :: after)).settled = ((Runner.start.run es).hear e).settled := by
  rw [Runner.run_append]
  have hopen : (Runner.start.run es).settled.isSome = false := by rw [h.settled]; rfl
  refine Explorer.settled_run ?_ after
  cases e with
  | error =>
    rw [Runner.hear, hopen]
    rfl
  | close code =>
    rw [Runner.hear, hopen]
    rfl
  | stdout => cases he
  | stderr => cases he
  | timeout => cases he
  | abort => cases he

/-- the answer, when the process was the first to settle the promise -/
theorem answer_close_iff {before after : List Heard} {code : Option Int} (hchunks : Heard.stdout [] ∉ before)
    (hopen : ∀ x ∈ before, x.settles = false) :
    answer host operation (before ++ .close code :: after) = some (.ok v) ↔
      Heard.abort ∉ before ∧ Heard.timeout ∉ before ∧ (output before).length ≤ STDOUT_MAX_BYTES ∧
        (code = some 0 ∨ code = some 2 ∨ code = none) ∧
        host.decode operation (units (fromUtf8Lossy (output before))) = .ok v := by
  have hkept := Kept.run hchunks hopen
  rw [answer, hkept.settled_run rfl, Runner.hear, hkept.settled]
  generalize Runner.start.run before = r at hkept
  have habort : r.aborted = false ↔ Heard.abort ∉ before := Bool.eq_false_iff.trans (not_congr hkept.aborted)
  have htimeout : r.timedOut = false ↔ Heard.timeout ∉ before := Bool.eq_false_iff.trans (not_congr hkept.timedOut)
  have hwhole : r.stdout.truncated = false ↔ (output before).length ≤ STDOUT_MAX_BYTES :=
    Bool.eq_false_iff.trans ((not_congr hkept.stdout.truncated).trans not_lt)
  have hkilled : (r.result code).killed = true →
      r.aborted = true ∨ (r.result code).timedOut = true ∨ (r.result code).stdoutTruncated = true := by
    intro hk
    rcases hkept.killed hk with ha | ht | hlong
    · exact .inl (hkept.aborted.mpr ha)
    · exact .inr (.inl (hkept.timedOut.mpr ht))
    · exact .inr (.inr (hkept.stdout.truncated.mpr hlong))
  show some (UiSessionClient.run host operation r.aborted (.resolved (r.result code).toProcessRunResult)) = _ ↔ _
  rw [Option.some.injEq, run_resolved_iff hkilled, habort]
  refine and_congr_right fun _ => ?_
  show r.timedOut = false ∧ r.stdout.truncated = false ∧ _ ↔ _
  rw [htimeout, hwhole]
  refine and_congr_right fun _ => and_congr_right fun hfits => ?_
  show _ ∧ host.decode operation r.stdout.text = .ok v ↔ _
  rw [hkept.text hfits]
  rfl

/-- **A request is answered with the whole of what the process printed, or not at all**: however the output was cut
into chunks, whatever else was printed, and in whatever order the timer, the signal and the process were heard -/
theorem answer_whole (hchunks : Heard.stdout [] ∉ es) :
    answer host operation es = some (.ok v) ↔ ∃ before code after, es = before ++ .close code :: after ∧
      (∀ x ∈ before, x.settles = false) ∧ Heard.abort ∉ before ∧ Heard.timeout ∉ before ∧
      (output before).length ≤ STDOUT_MAX_BYTES ∧ (code = some 0 ∨ code = some 2 ∨ code = none) ∧
      host.decode operation (units (fromUtf8Lossy (output before))) = .ok v := by
  constructor
  · intro hanswer
    cases hfirst : es.find? Heard.settles with
    | none =>
      -- nothing has settled the promise
      have hopen : ∀ x ∈ es, x.settles = false := fun x hx => Bool.eq_false_iff.mpr (List.find?_eq_none.mp hfirst x hx)
      rw [answer, (Kept.run hchunks hopen).settled] at hanswer
      cases hanswer
    | some e =>
      obtain ⟨he, before, after, rfl, hnot⟩ := List.find?_eq_some_iff_append.mp hfirst
      have hopen : ∀ x ∈ before, x.settles = false := fun x hx => (Bool.not_eq_true' _).mp (hnot x hx)
      have hbefore : Heard.stdout [] ∉ before := fun hmem => hchunks (List.mem_append_left _ hmem)
      have hkept := Kept.run hbefore hopen
      cases e with
      | close code => exact ⟨before, code, after, rfl, hopen, (answer_close_iff hbefore hopen).mp hanswer⟩
      | error =>
        rw [answer, hkept.settled_run he, Runner.hear, hkept.settled] at hanswer
        cases hanswer
      | stdout => cases he
      | stderr => cases he
      | timeout => cases he
      | abort => cases he
  · rintro ⟨before, code, after, rfl, hopen, hrest⟩
    exact (answer_close_iff (fun hmem => hchunks (List.mem_append_left _ hmem)) hopen).mpr hrest

end

/-- an output in two parts; the signal comes too late -/
theorem answer_whole_example :
    answer exampleHost .summary [.stdout [0x7B], .stderr [0x21], .stdout [0x7D], .close (some 0), .abort, .timeout]
      = some (.ok [0x7B, 0x7D]) :=
  (answer_whole (by simp)).mpr ⟨[.stdout [0x7B], .stderr [0x21], .stdout [0x7D]], some 0, [.abort, .timeout], rfl,
    by decide, by simp, by simp, by decide, .inl rfl, by decide +kernel⟩

end Dtj.Explorer
