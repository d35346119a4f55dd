import ContractConversion.Oracle.Program
import ContractConversion.Proofs.Files.Writing
import ContractConversion.Script.Run
import Mathlib.Control.Monad.Basic

/-!
# Validations

A validator is some program, and nothing is known here of what programs do. Whatever the machine
is, the program finds the code that is validated in its last argument, no file stays behind, and
code that is refused is refused for some reason (`Validator.validate_spec`). `Script.start` is a
machine on which validations can be followed to their end.
-/

namespace ContractConversion.Configuration.Validator

variable {v : Configuration.Validator} {files placed : Files} {folder mark code name : String}

/-- What is placed is a file at the path of its name. -/
lemma place_inv (h : v.place files folder mark code = .ok (name, placed)) :
    files.write name (Text.Utf8.encode code) = .ok placed := by
  rw [place] at h
  split at h
  next hwrite =>
    obtain ⟨rfl, rfl⟩ := Prod.mk.inj (Except.ok.inj h)
    exact hwrite
  next => cases h

/-- Whoever refuses code says something. -/
lemma ne_empty_of_invalid {execution : Execution} {message : String}
    (h : v.verdict code execution = .ok (.invalid message)) : message ≠ "" := by
  cases execution with
  | notStarted reason => cases h
  | ended left =>
    rw [verdict] at h
    split at h
    · cases h
    · obtain rfl := Validation.invalid.inj (Except.ok.inj h)
      rw [complaint]
      split
      · assumption
      · split
        · assumption
        · simp

/-- **What a validation does, whatever the programs are.** The program is called with the name of a
file that holds the code. After it the file is gone, and if the program leaves the files alone, so
does the validation. Code that is refused is refused for a reason. -/
theorem validate_spec (machine : Machine)
    (h : v.place files folder mark code = .ok (name, placed)) :
    let (execution, left) := machine placed v.command (v.args ++ [name])
    let (answer, after) := v.validate machine files folder mark code
    placed.readText name = .ok code ∧ answer = v.verdict code execution ∧
      after.file? (Path.ofText name) = none ∧
      (files.file? (Path.ofText name) = none → left = placed → after = files) ∧
      ∀ message, answer = .ok (.invalid message) → message ≠ "" := by
  have hwrite := place_inv h
  -- what is placed is what was there with one file put into it
  obtain ⟨-, -, -, -, rfl⟩ := Files.put_of_write hwrite
  rw [validate, h]
  dsimp only
  refine ⟨(Files.readText_of_write hwrite).2, rfl, Files.file?_remove _ _, fun hnew hleft => ?_,
    fun message => ne_empty_of_invalid⟩
  rw [hleft]
  exact Files.remove_putFile rfl hnew

/-- A program that prints what it is called with. -/
example :
    let v : Configuration.Validator :=
      { command := "sh", args := ["-c", "cat \"$0\""], extension := "txt" }
    v.validate Script.start { folders := [["/", "scratch"]] } "/scratch" "1" "code" =
      (.ok (.valid 4 (some (.str "code"))), { folders := [["/", "scratch"]] }) := by
  decide +kernel

end ContractConversion.Configuration.Validator
