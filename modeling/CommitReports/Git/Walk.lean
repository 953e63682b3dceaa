import CommitReports.Git.RevisionName
import CommitReports.Graph.Order

/-!
# Walking through a history

`Repository.commitsBetween` lists the commits that one commit leads to and another
does not, children before parents, the newest of those that are ready first. The
history has to be complete: a commit in it that is missing or cannot be read is an
error.
-/

namespace CommitReports.Git.Repository

/-- The first commit that a history lacks. -/
def gap? (repository : Repository) (commit : ObjectId) : Option ObjectFault :=
  (repository.objects.faultsFrom commit).head?

/-- Whether one commit is to be listed before another: it is newer. -/
def newer (repository : Repository) (a b : ObjectId) : Bool :=
  repository.objects.time b < repository.objects.time a

/-- The commits that `upto` leads to and `since` does not. -/
def commitsBetween (repository : Repository) (since upto : ObjectId) :
    Except ObjectFault (List ObjectId) :=
  match repository.gap? upto with
  | some fault => .error fault
  | none =>
    match repository.gap? since with
    | some fault => .error fault
    | none => .ok (repository.objects.graph.between repository.newer since upto)

/-- Whether a commit has another one among its ancestors. -/
def isDescendant (repository : Repository) (commit ancestor : ObjectId) : Except ObjectFault Bool :=
  match repository.gap? commit with
  | some fault => .error fault
  | none =>
    match repository.gap? ancestor with
    | some fault => .error fault
    | none => .ok (commit != ancestor &&
        (repository.objects.graph.ancestors commit).contains ancestor)

end CommitReports.Git.Repository
