import BicepForge.Generation.Naming
import BicepForge.Proofs.Text.Letters

/-!
# Symbols of resource types

Symbols are letters and digits, in whatever type they come from.
-/

namespace BicepForge.Generation

theorem isAlphanum_of_mem_alphanumerics {cs : List Char} :
    ∀ c ∈ alphanumerics cs, c.isAlphanum = true :=
  fun _ hc => (List.mem_filter.mp hc).2

theorem isAlphanum_resourceSymbol (type : String) :
    ∀ c ∈ (resourceSymbol type).toList, c.isAlphanum = true := by
  have run : ∀ c ∈ alphanumerics (lastSegment type), c.isAlphanum = true :=
    isAlphanum_of_mem_alphanumerics
  unfold resourceSymbol
  cases hs : alphanumerics (lastSegment type) with
  | nil => decide +kernel
  | cons c cs =>
    rw [hs, List.forall_mem_cons] at run
    rw [String.toList_ofList]
    exact List.forall_mem_cons.mpr ⟨Text.isAlphanum_toLower run.1, run.2⟩

end BicepForge.Generation
