import DeviceShell.Lib.Redaction

/-!
# Redaction of output that arrives in chunks

`SecretOutputFilter` of `interfaces/desktop_api/secret_filter.py`. It keeps back what may be the
beginning of a secret. `streamed_eq_redact` says that the chunks that it puts out are together the
redaction of the whole text, however the text was cut.
-/

namespace DeviceShell.Desktop

open Redaction

/-- What replaces a secret. -/
def mask : List Char := "***".toList

/-- `SecretOutputFilter`. -/
structure SecretOutputFilter where
  /-- `_secrets`. -/
  secrets : List (List Char)
  /-- `_max_secret_length`. -/
  maxSecretLength : ℕ
  /-- `_pending`. -/
  pending : List Char
  nonempty : [] ∉ secrets
  sorted : secrets.Pairwise fun a b => b.length ≤ a.length
  longest : ∀ secret ∈ secrets, secret.length ≤ maxSecretLength

namespace SecretOutputFilter

/-- The secrets that are no empty texts, the longest first. -/
def sortedSecrets (secrets : List String) : List (List Char) :=
  ((secrets.filter (· ≠ "")).map String.toList).mergeSort fun a b => b.length ≤ a.length

/-- `__init__`, given the elements of the set of secrets in any order. -/
def init (secrets : List String) : SecretOutputFilter where
  secrets := sortedSecrets secrets
  maxSecretLength := ((sortedSecrets secrets).map List.length).foldr max 0
  pending := []
  nonempty := by
    simp [sortedSecrets]
  sorted := by
    have hpairs := @List.pairwise_mergeSort _ (fun a b : List Char => b.length ≤ a.length)
      (fun a b c h h' => by simp only [decide_eq_true_eq] at *; omega)
      (fun a b => by simp only [Bool.or_eq_true, decide_eq_true_eq]; omega)
      ((secrets.filter (· ≠ "")).map String.toList)
    exact hpairs.imp of_decide_eq_true
  longest secret hsecret := by
    have hin : secret.length ∈ (sortedSecrets secrets).map List.length :=
      List.mem_map_of_mem hsecret
    generalize (sortedSecrets secrets).map List.length = lengths at hin
    induction lengths with
    | nil => cases hin
    | cons n rest ih =>
      rw [List.foldr_cons]
      rcases List.mem_cons.1 hin with heq | hin
      · omega
      · have hrest := ih hin
        omega

/-- `_render_prefix`: what it renders, and the text from the place where it stops. -/
def renderPrefix (f : SecretOutputFilter) (text : List Char) (safeCharacters : ℕ) :
    List Char × List Char :=
  scan f.secrets mask safeCharacters text

/-- `feed`. -/
def feed (f : SecretOutputFilter) (text : List Char) : List Char × SecretOutputFilter :=
  if f.secrets.isEmpty then (text, f)
  else
    let combined := f.pending ++ text
    let safeCharacters := combined.length + 1 - f.maxSecretLength
    let (rendered, left) := f.renderPrefix combined safeCharacters
    (rendered, { f with pending := left })

/-- `flush`. -/
def flush (f : SecretOutputFilter) : List Char × SecretOutputFilter :=
  let (rendered, _) := f.renderPrefix f.pending f.pending.length
  (rendered, { f with pending := [] })

/-- The concatenation of what `feed` returns for the chunks of a text and what `flush` returns
then. -/
def streamed (f : SecretOutputFilter) : List (List Char) → List Char
  | [] => f.flush.1
  | chunk :: rest =>
    let (rendered, f') := f.feed chunk
    rendered ++ f'.streamed rest

/-- `feed` changes what is pending only. -/
theorem feed_secrets (f : SecretOutputFilter) (text : List Char) :
    (f.feed text).2.secrets = f.secrets := by
  unfold feed
  split <;> rfl

/-- Without secrets nothing is kept back. -/
theorem feed_idle {f : SecretOutputFilter} (h : f.secrets = [] → f.pending = [])
    (text : List Char) : (f.feed text).2.secrets = [] → (f.feed text).2.pending = [] := by
  intro hsecrets
  rw [feed_secrets] at hsecrets
  have hempty : f.secrets.isEmpty = true := List.isEmpty_iff.2 hsecrets
  simp only [feed, hempty, if_true]
  exact h hsecrets

/-- A chunk: the filter keeps back what the chunks so far do not decide. -/
theorem feed_redact {f : SecretOutputFilter} (h : f.secrets = [] → f.pending = [])
    (text more : List Char) :
    redact f.secrets mask (f.pending ++ (text ++ more)) =
      (f.feed text).1 ++ redact f.secrets mask ((f.feed text).2.pending ++ more) := by
  unfold feed
  by_cases hempty : f.secrets.isEmpty
  · have hsecrets := List.isEmpty_iff.1 hempty
    rw [if_pos hempty, hsecrets, redact_nil, redact_nil, h hsecrets]
    rfl
  · rw [if_neg hempty]
    -- What may be the beginning of a secret is not decided yet.
    have hsafe : (f.pending ++ text).length + 1 - f.maxSecretLength = 0 ∨
        (f.pending ++ text).length + 1 - f.maxSecretLength + f.maxSecretLength ≤
          (f.pending ++ text).length + 1 := by omega
    calc redact f.secrets mask (f.pending ++ (text ++ more))
        = redact f.secrets mask (f.pending ++ text ++ more) := by rw [List.append_assoc]
      _ = _ := redact_scan f.nonempty f.sorted f.longest _ _ hsafe more

/-- From any state what is put out is the redaction of what is pending and all that follows. -/
theorem streamed_redact {f : SecretOutputFilter} (h : f.secrets = [] → f.pending = [])
    (chunks : List (List Char)) :
    f.streamed chunks = redact f.secrets mask (f.pending ++ chunks.flatten) := by
  induction chunks generalizing f with
  | nil =>
    rw [List.flatten_nil, List.append_nil]
    exact scan_all f.nonempty f.sorted _ _ le_rfl
  | cons chunk rest ih =>
    have hstep := feed_redact h chunk rest.flatten
    have hrest := ih (feed_idle h chunk)
    rw [feed_secrets] at hrest
    calc f.streamed (chunk :: rest)
        = (f.feed chunk).1 ++ (f.feed chunk).2.streamed rest := rfl
      _ = (f.feed chunk).1 ++
            redact f.secrets mask ((f.feed chunk).2.pending ++ rest.flatten) := by rw [hrest]
      _ = redact f.secrets mask (f.pending ++ (chunk ++ rest.flatten)) := hstep.symm

/-- The chunks of a text are redacted, one after the other and with what was kept back, as the whole
text is: from left to right, the longest secret at each place. -/
theorem streamed_eq_redact (secrets : List String) (chunks : List (List Char)) :
    (init secrets).streamed chunks =
      redact (secrets.map String.toList) mask chunks.flatten := by
  rw [streamed_redact (fun _ => rfl)]
  refine redact_congr (fun word hne => ?_) chunks.flatten
  have hsorted : word ∈ sortedSecrets secrets ↔
      word ∈ (secrets.filter (· ≠ "")).map String.toList := List.mem_mergeSort
  rw [show (init secrets).secrets = sortedSecrets secrets from rfl, hsorted]
  constructor
  · intro h
    obtain ⟨secret, hin, rfl⟩ := List.mem_map.1 h
    exact List.mem_map_of_mem (List.mem_of_mem_filter hin)
  · intro h
    obtain ⟨secret, hin, rfl⟩ := List.mem_map.1 h
    have hkept : secret ≠ "" := by
      rintro rfl
      exact hne rfl
    exact List.mem_map_of_mem (List.mem_filter.2 ⟨hin, decide_eq_true hkept⟩)

end SecretOutputFilter

end DeviceShell.Desktop
