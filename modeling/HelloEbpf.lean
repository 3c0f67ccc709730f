import HelloEbpf.Baseline.Exit
import HelloEbpf.Baseline.Range
import HelloEbpf.Baseline.Safety
import HelloEbpf.Nvme.BringUp
import HelloEbpf.Spdk.Concurrent
import HelloEbpf.Tracing.Cleanup
import HelloEbpf.Tracing.Speech
import HelloEbpf.Workflow.History
