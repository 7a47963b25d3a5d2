import AgentPlatform.Guarantees.AtMostOnce
import AgentPlatform.Guarantees.Starting
import AgentPlatform.Guarantees.Visibility
import AgentPlatform.Guarantees.Limits
import AgentPlatform.Guarantees.Log
import AgentPlatform.Guarantees.Deletion
import AgentPlatform.Guarantees.Unknown
import AgentPlatform.Guarantees.Keys
import AgentPlatform.Guarantees.Mistakes
import AgentPlatform.Guarantees.Ordering
import AgentPlatform.Guarantees.Reference
import AgentPlatform.Guarantees.Reasons
import AgentPlatform.Guarantees.Headers
import AgentPlatform.Guarantees.Independence
import AgentPlatform.Guarantees.Isolation
import AgentPlatform.Guarantees.Restart
import AgentPlatform.Guarantees.Progress
import AgentPlatform.Guarantees.Registry
import AgentPlatform.Guarantees.Provenance
import AgentPlatform.Guarantees.Refusal
import AgentPlatform.Guarantees.Clock
