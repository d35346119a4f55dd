import ContractConversion.Oracle.Extraction
import ContractConversion.Oracle.Program
import ContractConversion.Proofs.Json.Decoding
import ContractConversion.Proofs.Session.State
import ContractConversion.Proofs.Wire.Models

/-!
# JSON from outside programs

Embedded JSON of a session comes from texts: the data of a completion is extracted from an answer,
and the metadata of an artifact is what the validator prints. Both are in normal form. The
deployment data of an answer is a part of its data, and null stands for no deployment data; the
metadata of an artifact may well be null.
-/

namespace ContractConversion

open Json

/-- What is extracted from an answer is in normal form. -/
lemma Extraction.normal_of_extract {text : String} {v : Value} (h : extract text = .ok v) :
    v.Normal := by
  unfold extract at h
  dsimp only at h
  split at h
  · cases h
  · split at h
    · cases h
    · split at h
      · cases h
      · next hparse =>
        split at h
        · cases h
          exact Value.normal_of_parse hparse
        · cases h

/-- What a validator prints is in normal form. -/
lemma Configuration.Validator.normal_of_metadata {output : String} {v : Value}
    (h : metadata? output = some v) : v.Normal := by
  unfold metadata? at h
  split at h
  · cases h
  · split at h
    · next hparse =>
      obtain rfl := Option.some.inj h
      exact Value.normal_of_parse hparse
    · obtain rfl := Option.some.inj h
      trivial

/-! ## Deployment data -/

namespace Json

/-- The tree of a value that fits. -/
def Tree.OfFitting (t : Tree) : Prop :=
  ∃ v : Value, v.Fits ∧ t = ofValue v

/-- The parts of a value that fits do so as well. -/
lemma Tree.parts_ofValue {v : Value} (h : v.Fits) : (ofValue v).Parts OfFitting := by
  obtain ⟨hnormal, hintegral⟩ := h
  cases v with
  | arr items =>
    have hitems : ∀ items : List Value, Value.NormalItems items → Value.IntegralItems items →
        (ofItems items).All OfFitting := by
      intro items hn hi
      induction items with
      | nil => trivial
      | cons v rest ih => exact ⟨⟨v, ⟨hn.1, hi.1⟩, rfl⟩, ih hn.2 hi.2⟩
    exact hitems items hnormal hintegral
  | obj members =>
    have hmembers : ∀ members : List (String × Value), Value.NormalMembers members →
        Value.IntegralMembers members → (ofMembers members).All OfFitting := by
      intro members hn hi
      induction members with
      | nil => trivial
      | cons m rest ih => exact ⟨⟨m.2, ⟨hn.1, hi.1⟩, rfl⟩, ih hn.2 hi.2⟩
    exact hmembers members hnormal.2 hintegral
  | _ => trivial

/-- Optional JSON that is read from the tree of a value that fits can be written. -/
lemma Codec.fits_of_nullable {t : Tree} {data : Option Value} (ht : t.OfFitting)
    (h : (nullable any).decode .value t = .ok data) : OptionalFits data := by
  rintro v rfl
  obtain ⟨w, hw, rfl⟩ := ht
  obtain ⟨hnull, hread⟩ := from_of_nullable h
  have hsame : Tree.read (.ofValue w) = .ok w :=
    Tree.read_of_shows (Tree.shows_ofValue w) hw.normal
  obtain rfl : w = v := Except.ok.inj (hsame.symm.trans hread)
  refine ⟨hw, fun hv => ?_⟩
  subst hv
  exact hnull 0 0 rfl

end Json

namespace Generation

/-- **The deployment data of a first answer can be written if the answer fits.** -/
theorem deployment_of_classify {data : Value} {output : Generation} (h : classify data = .ok output)
    (hdata : data.Fits) : OptionalFits output.deployment := by
  obtain ⟨r, hr, ⟨code, rfl, -⟩ | ⟨contracts, rfl, -⟩⟩ := classify_ok h
  · exact fun v hv => absurd hv (by simp [deployment])
  · obtain ⟨⟨code, contracts, deployment, -⟩, ⟨-, -, hfrom, -⟩, rfl⟩ :=
      Codec.from_of_record (Tree.parts_ofValue hdata) (ok_of_mapError hr)
    rcases hfrom with ⟨t, ht, hread⟩ | habsent
    · exact Codec.fits_of_nullable ht hread
    · obtain rfl := Option.some.inj habsent
      exact fun v hv => absurd hv (by simp [Generation.deployment])

end Generation

end ContractConversion
