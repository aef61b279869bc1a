import RequestFeed.Read.Scripted
/-!
# Scripts of readers

What a reader answers when it is read again and again with one size: some answers, and then that
there is no more input. Unlike the content of a reader, a script tells where the reader fails and
how it cuts the input.

*Results.*
* `Reader.Plays.read_nil`: a reader that has come to the end of its script stays there.
* `ScriptedReader.plays`: every script whose pieces fit is played by some reader.
-/

namespace RequestFeed

namespace Reader

/-- What a reader answers, read after read, before the end of its input. -/
abbrev Script := List (Except IoError Bytes)

namespace Script

/-- No answer is taken for the end of the input. -/
def Proper (script : Script) : Prop := .ok [] ∉ script

/-- The pieces of the input, put together. -/
def bytes (script : Script) : Bytes :=
  script.flatMap fun
    | .ok piece => piece
    | .error _ => []

/-- The errors that are more than interruptions. -/
def failures (script : Script) : List IoError :=
  script.filterMap fun
    | .ok _ => none
    | .error e => if e.kind = .interrupted then none else some e

@[simp] theorem bytes_nil : bytes [] = [] := rfl

@[simp] theorem bytes_ok (piece : Bytes) (rest : Script) :
    bytes (.ok piece :: rest) = piece ++ bytes rest := rfl

@[simp] theorem bytes_error (e : IoError) (rest : Script) :
    bytes (.error e :: rest) = bytes rest := rfl

theorem bytes_append (first rest : Script) : bytes (first ++ rest) = bytes first ++ bytes rest :=
  List.flatMap_append

@[simp] theorem failures_nil : failures [] = [] := rfl

@[simp] theorem failures_ok (piece : Bytes) (rest : Script) :
    failures (.ok piece :: rest) = failures rest := rfl

theorem failures_interrupted {e : IoError} (h : e.kind = .interrupted) (rest : Script) :
    failures (.error e :: rest) = failures rest :=
  List.filterMap_cons_none (if_pos h)

theorem failures_error {e : IoError} (h : e.kind ≠ .interrupted) (rest : Script) :
    failures (.error e :: rest) = e :: failures rest :=
  List.filterMap_cons_some (if_neg h)

theorem failures_append (first rest : Script) :
    failures (first ++ rest) = failures first ++ failures rest := List.filterMap_append

theorem kind_of_mem_failures {script : Script} {e : IoError} (h : e ∈ script.failures) :
    e.kind ≠ .interrupted := by
  obtain ⟨answer, -, hsome⟩ := List.mem_filterMap.mp h
  cases answer with
  | ok piece => cases hsome
  | error cause =>
    rw [Option.ite_none_left_eq_some] at hsome
    obtain ⟨hkind, hsame⟩ := hsome
    rwa [← Option.some.inj hsame]

/-- A script is what has been played of it and what is still to be played. -/
theorem bytes_take_append_drop (n : Nat) (script : Script) :
    bytes (script.take n) ++ bytes (script.drop n) = bytes script := by
  rw [← bytes_append, List.take_append_drop]

theorem failures_take_append_drop (n : Nat) (script : Script) :
    failures (script.take n) ++ failures (script.drop n) = failures script := by
  rw [← failures_append, List.take_append_drop]

theorem ne_nil_of_failures {script : Script} {e : IoError} {rest : List IoError}
    (h : script.failures = e :: rest) : script ≠ [] := by
  rintro rfl
  cases h

theorem Proper.tail {answer : Except IoError Bytes} {rest : Script}
    (h : Proper (answer :: rest)) : Proper rest :=
  fun hmem => h (List.mem_cons_of_mem answer hmem)

theorem Proper.drop {script : Script} (h : script.Proper) (n : Nat) : Proper (script.drop n) :=
  fun hmem => h (List.mem_of_mem_drop hmem)

end Script

section

variable {ρ : Type} [Reader ρ]

/-- A reader after some reads of one size. -/
def after (size : Nat) : Nat → ρ → ρ
  | 0, r => r
  | n + 1, r => after size n (read size r).2

/-- A reader answers what a script says when it is read with this size, and after that always that
there is no more input. -/
def Plays (size : Nat) : Script → ρ → Prop
  | [], r => ∀ n, (read size (after size n r)).1 = .ok []
  | answer :: rest, r => (read size r).1 = answer ∧ Plays size rest (read size r).2

theorem after_add (size n m : Nat) (r : ρ) :
    after size (n + m) r = after size m (after size n r) := by
  induction n generalizing r with
  | zero => rw [Nat.zero_add, after]
  | succ n ih => rw [Nat.succ_add, after, after, ih]

variable {size : Nat} {r : ρ}

/-- At the end of its input a reader stays at the end. -/
theorem Plays.read_nil (h : Plays size [] r) :
    (read size r).1 = .ok [] ∧ Plays size [] (read size r).2 :=
  ⟨h 0, fun n => h (n + 1)⟩

end

end Reader

/-- The entry of a script that brings about an answer. -/
def ReaderItem.ofAnswer : Except IoError Bytes → ReaderItem
  | .ok piece => .bytes piece
  | .error e => .failure e

/-- The reader that is made for a script. -/
def ScriptedReader.ofScript (script : Reader.Script) : ScriptedReader :=
  ⟨script.map ReaderItem.ofAnswer⟩

/-- A script is played by the reader that is made for it if its pieces fit. -/
theorem ScriptedReader.plays {size : Nat} {script : Reader.Script}
    (h : ∀ piece, .ok piece ∈ script → piece.length ≤ size) :
    Reader.Plays size script (ofScript script) := by
  induction script with
  | nil =>
    intro n
    have hstays : Reader.after size n (⟨[]⟩ : ScriptedReader) = ⟨[]⟩ := by
      induction n with
      | zero => rfl
      | succ n ih => exact ih
    rw [ofScript, List.map_nil, hstays]
    rfl
  | cons answer rest ih =>
    have hrest := ih fun piece hmem => h piece (List.mem_cons_of_mem answer hmem)
    cases answer with
    | error e => exact ⟨rfl, hrest⟩
    | ok piece =>
      have hfits : piece.drop size = [] :=
        List.drop_eq_nil_of_le (h piece List.mem_cons_self)
      have hread (items : List ReaderItem) :
          Reader.read size (⟨.bytes piece :: items⟩ : ScriptedReader) = (.ok piece, ⟨items⟩) := by
        simp [Reader.read, ScriptedReader.read, hfits]
      rw [ofScript, List.map_cons, ReaderItem.ofAnswer, Reader.Plays, hread]
      exact ⟨rfl, hrest⟩

end RequestFeed
