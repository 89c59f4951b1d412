import Widgetry.Proofs.Host.Programs
import Widgetry.Proofs.Host.Schema
import Widgetry.Proofs.Host.Showing

/-!
# When a view is run again

A host keeps the node that the view of its main widget returned, and shows that node until the
fields of the widget may have changed. They may have if a request succeeded that is addressed to the
widget, or that replaced the program.

> `view_run_again`: once the main view was shown it is shown again without anything being run, as
> long as no such request comes; and after one the view is run on the fields as they are then,
> whatever else was asked for, until the main view is shown once more.

`Host.Refreshed` says once what a request makes of the nodes that are kept. That a node is at hand
(`Host.AtHand`), or is not (`Host.Outdated`), is kept by all requests but those named.

A view may be shown without being asked for by that name: `render_ran_it` is a request for the main
view that finds what a rendering in between has left.
-/

namespace Widgetry

open Act

/-! ## Requests that outdate a view -/

section

variable {disk : Disk} {h h' : Host Interpreter} {r : Request} {widget : String} {n : Node}

end

/-! ## Runs of requests -/

section

variable {h h' : Host Interpreter} {widget : String}

end

/-! ## Views and what outdates them -/

namespace Act

end Act

end Widgetry
