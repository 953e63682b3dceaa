import CommitReports.Git.FastForward

/-!
# Refreshing

A repository is refreshed by a fetch from its remote, after which its local
branches are moved forward.
-/

namespace CommitReports.Git.Workspace

/-- The repository after a fetch from a remote, or why there was none. -/
def fetched (workspace : Workspace) (files : Files) (repository : Repository) :
    Except String Repository := do
  let remote ← (repository.remoteNamed workspace.remote).mapError RemoteFault.message
  if remote.url = "" then throw (RemoteFault.noUrl workspace.remote).message
  let other ← workspace.repositoryAt files remote.url
  (repository.fetch remote other).mapError RemoteFault.message

/-- Fetches from the remote and moves local branches forward. -/
def refresh : Action Workspace Unit := do
  let workspace ← Action.resource
  Action.debug s!"git pull {workspace.remote}"
  match workspace.fetched (← Action.files) (← present) with
  | .error reason =>
    throw (.unavailable (s!"refresh from \x27{workspace.remote}\x27 failed: " ++ reason))
  | .ok repository =>
    setPresent repository
    fastForward

end CommitReports.Git.Workspace
