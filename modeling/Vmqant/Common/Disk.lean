import Mathlib

/-!
# Logs that are spread over files

A disk holds the bytes of each file that exists. A log that is appended to one file, which is moved out of
the way from time to time, is `Spread` over the files it was moved to, in their order, and the file it is
appended to now. Moving the file to a name that is free is what keeps the log in one piece.
-/

/-- The contents of the files that exist. -/
abbrev Disk (ν β : Type) := ν → Option (List β)

namespace Disk

variable {ν β : Type} [DecidableEq ν]

omit [DecidableEq ν] in
/-- The content of a file; there is nothing in a file that does not exist. -/
def content (d : Disk ν β) (n : ν) : List β := (d n).getD []

/-- Open a file, which is created if there is none. -/
def create (d : Disk ν β) (n : ν) : Disk ν β := Function.update d n (some (d.content n))

def append (d : Disk ν β) (n : ν) (bs : List β) : Disk ν β :=
  Function.update d n (some (d.content n ++ bs))

/-- A file that has the new name is gone. -/
def rename (d : Disk ν β) (n n' : ν) : Disk ν β := Function.update (Function.update d n none) n' (d n)

omit [DecidableEq ν] in
/-- The contents of files, one after the other. -/
def concat (d : Disk ν β) (ns : List ν) : List β := ns.flatMap d.content

variable {d d₀ : Disk ν β} {n n' cur : ν} {ns old : List ν} {bs written : List β}

theorem content_update_self {x : Option (List β)} : content (Function.update d n x) n = x.getD [] := by
  unfold content
  rw [Function.update_self]

theorem content_update_of_ne {x : Option (List β)} (h : n' ≠ n) :
    content (Function.update d n x) n' = d.content n' := by
  unfold content
  rw [Function.update_of_ne h]

theorem concat_update_of_not_mem {x : Option (List β)} (h : n ∉ ns) :
    concat (Function.update d n x) ns = d.concat ns := by
  refine List.flatMap_congr fun n' hn' => ?_
  exact content_update_of_ne fun heq => h (heq ▸ hn')

theorem create_self_ne_none (d : Disk ν β) (n : ν) : d.create n n ≠ none := by
  unfold create
  rw [Function.update_self]
  exact Option.some_ne_none _

theorem append_self_ne_none (d : Disk ν β) (n : ν) (bs : List β) : d.append n bs n ≠ none := by
  unfold append
  rw [Function.update_self]
  exact Option.some_ne_none _

theorem rename_self (h : n ≠ n') : d.rename n n' n = none := by
  unfold rename
  rw [Function.update_of_ne h, Function.update_self]

theorem rename_of_ne {m : ν} (hn : m ≠ n) (hn' : m ≠ n') : d.rename n n' m = d m := by
  unfold rename
  rw [Function.update_of_ne hn', Function.update_of_ne hn]

/-- The log `written` has been appended to what was in `cur` on the disk `d₀`; its first parts are in the files
`old`, which did not exist, and no other file has changed. -/
structure Spread (d₀ d : Disk ν β) (cur : ν) (old : List ν) (written : List β) : Prop where
  nodup : (old ++ [cur]).Nodup
  fresh : ∀ n ∈ old, d₀ n = none
  present : ∀ n ∈ old, d n ≠ none
  frame : ∀ n ∉ old, n ≠ cur → d n = d₀ n
  log : d.concat (old ++ [cur]) = d₀.content cur ++ written

namespace Spread

omit [DecidableEq ν] in
theorem refl (d : Disk ν β) (cur : ν) : Spread d d cur [] [] where
  nodup := List.nodup_singleton cur
  fresh := nofun
  present := nofun
  frame := fun _ _ _ => rfl
  log := by simp [concat]

omit [DecidableEq ν] in
theorem not_mem (h : Spread d₀ d cur old written) : cur ∉ old := by
  have hdisj := (List.nodup_append.mp h.nodup).2.2
  exact fun hmem => hdisj cur hmem cur List.mem_cons_self rfl

/-- More is put into the current file. -/
theorem update (h : Spread d₀ d cur old written) {x : List β} (hx : x = d.content cur ++ bs) :
    Spread d₀ (Function.update d cur (some x)) cur old (written ++ bs) where
  nodup := h.nodup
  fresh := h.fresh
  present := by
    intro n hn
    have hne : n ≠ cur := ne_of_mem_of_not_mem hn h.not_mem
    rw [Function.update_of_ne hne]
    exact h.present n hn
  frame := by
    intro n hn hne
    rw [Function.update_of_ne hne]
    exact h.frame n hn hne
  log := by
    have hlog := h.log
    unfold concat at hlog ⊢
    rw [List.flatMap_append, List.flatMap_singleton] at hlog ⊢
    rw [content_update_self, Option.getD_some, hx, ← List.append_assoc (d₀.content cur), ← hlog,
      List.append_assoc]
    congr 1
    exact concat_update_of_not_mem h.not_mem

theorem append (h : Spread d₀ d cur old written) (bs : List β) :
    Spread d₀ (d.append cur bs) cur old (written ++ bs) := h.update rfl

theorem create (h : Spread d₀ d cur old written) : Spread d₀ (d.create cur) cur old written := by
  have hcreate : Spread d₀ (d.create cur) cur old (written ++ []) := h.update (List.append_nil _).symm
  rwa [List.append_nil] at hcreate

/-- The current file is moved to a name that is free. -/
theorem rotate (h : Spread d₀ d cur old written) (hcur : d cur ≠ none) (hfree : d n = none) :
    Spread d₀ (d.rename cur n) cur (old ++ [n]) written := by
  have hne : cur ≠ n := fun heq => hcur (heq ▸ hfree)
  have hold : n ∉ old := fun hmem => h.present n hmem hfree
  have hother : ∀ m ∈ old, d.rename cur n m = d m := fun m hm =>
    rename_of_ne (fun heq => h.not_mem (heq ▸ hm)) fun heq => hold (heq ▸ hm)
  constructor
  · have hcons : (n :: (old ++ [cur])).Nodup := by
      refine List.nodup_cons.mpr ⟨fun hmem => ?_, h.nodup⟩
      rcases List.mem_append.mp hmem with hmem | hmem
      · exact hold hmem
      · exact hne (List.mem_singleton.mp hmem).symm
    rw [List.append_assoc]
    exact (List.perm_middle.nodup_iff).mpr hcons
  · intro m hm
    rcases List.mem_append.mp hm with hm | hm
    · exact h.fresh m hm
    · rw [List.mem_singleton.mp hm, ← h.frame n hold hne.symm]
      exact hfree
  · intro m hm
    rcases List.mem_append.mp hm with hm | hm
    · rw [hother m hm]
      exact h.present m hm
    · rw [List.mem_singleton.mp hm, rename, Function.update_self]
      exact hcur
  · intro m hm hmcur
    obtain ⟨hmold, hmn⟩ := not_or.mp (List.mem_append.not.mp hm)
    rw [rename_of_ne hmcur fun heq => hmn (List.mem_singleton.mpr heq)]
    exact h.frame m hmold hmcur
  · -- what was in the current file is now in `n`, and the current file is empty
    have hlog := h.log
    unfold concat at hlog ⊢
    rw [List.flatMap_append, List.flatMap_singleton] at hlog
    rw [List.flatMap_append, List.flatMap_append, List.flatMap_singleton, List.flatMap_singleton]
    have hn : (d.rename cur n).content n = d.content cur := content_update_self
    have hempty : (d.rename cur n).content cur = [] := by
      unfold content
      rw [rename_self hne]
      rfl
    have holds : old.flatMap (d.rename cur n).content = old.flatMap d.content := by
      refine List.flatMap_congr fun m hm => ?_
      unfold content
      rw [hother m hm]
    rw [hn, hempty, holds, List.append_nil, hlog]

end Spread

end Disk
