import CommitReports.Action

/-!
# Histories

A history of commits answers questions about revisions, and can be asked to show
a branch in its working tree and to fetch what is new. Revisions are named by
texts: a branch, a hash, or whatever else the history understands. What a
question does to the history and to the files is up to the history; a question
may fail.
-/

namespace CommitReports

/-- The questions that a history answers, and what it can be told to do. -/
class History (ρ : Type) where
  /-- The full hash of the one commit that a name stands for. -/
  resolve : (revision : String) → Action ρ String
  /-- The hashes of the commits that can be reached from `upto` and not from `since`, newest
  first. -/
  commitsBetween : (since upto : String) → Action ρ (List String)
  /-- The first parent of a commit, if it has one. -/
  parent : (commit : String) → Action ρ (Option String)
  /-- What a single commit says of itself: header, message and the paths it touches. -/
  whatChanged : (commit : String) → Action ρ String
  /-- The patch from one commit, or from nothing, to another. -/
  diff : (base : Option String) → (tip : String) → Action ρ String
  /-- Whether a name is that of a local branch. -/
  hasLocalBranch : (name : String) → Action ρ Bool
  /-- Shows a branch in the working tree. -/
  checkout : (branch : String) → Action ρ Unit
  /-- Fetches what is new and moves local branches forward. -/
  refresh : Action ρ Unit

end CommitReports
