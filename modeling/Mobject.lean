import Mobject.EndToEnd
import Mobject.Endpoints
import Mobject.Handlers.Answers
import Mobject.Handlers.BackendLifetime
import Mobject.Handlers.Disclosure
import Mobject.Handlers.Linearizable
import Mobject.Handlers.Locking
import Mobject.Handlers.NonInterference
import Mobject.Handlers.Progress
import Mobject.Handles
import Mobject.Provider.Callbacks
import Mobject.Registration
import Mobject.Requests.Lifetime
import Mobject.Requests.Ownership
import Mobject.Requests.Refinement
import Mobject.Requests.Responses
import Mobject.Server
import Mobject.Service
